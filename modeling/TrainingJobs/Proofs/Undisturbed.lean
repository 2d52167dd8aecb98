import TrainingJobs.Proofs.AutoNaming

/-!
# Runs that nobody disturbs

In a quiet world each request has the one effect that is asked for: what is not written to stays as it is, taken keys and free ones
(`World.Quiet.step`). Any other world can be compared with the quiet one that has the same config maps (`World.alone`): a run that is
told and leaves the same as there has met no failure of the server and no other client (`Program.RunsAlone`), whatever may be to come
behind it.
-/

namespace TrainingJobs

/-! ## Calls of the installer -/

namespace World

/-- A request to the server is no call of the installer. -/
theorem calls_contact {α : Type} (w : World) (request : Server → Except ApiError α × Server) :
    (w.contact request).2.calls = w.calls ++ [] := by
  unfold contact
  split <;> exact (List.append_nil _).symm

/-- A world knows the call of the installer, if an exchange was one. -/
theorem calls_answer {w w' : World} {x : Exchange} (h : w.answer x.request = (x.reply, w')) :
    w'.calls = w.calls ++ x.call?.toList.map (·.1) := by
  obtain ⟨r, reply⟩ := x
  have hcalls : w'.calls = (w.answer r).2.calls := by rw [h]
  rw [hcalls]
  cases r with
  | createMap key map => exact w.calls_contact (·.create key map)
  | listMaps space label value => exact w.calls_contact (·.list space label value)
  | getMap key => exact w.calls_contact (·.get key)
  | replaceMap key version map => exact w.calls_contact (·.replace key version map)
  | patchMap key texts => exact w.calls_contact (·.patch key texts)
  | deleteMap key => exact w.calls_contact (·.delete key)
  | listObjects kind space activeOnly => exact w.calls_contact (·.listObjects kind space activeOnly)
  | install call => rfl
  | query | log | print | now => exact (List.append_nil _).symm

/-- The calls behind some exchanges are those before them and then those among them. -/
theorem Path.calls {w w' : World} {xs : List Exchange} (h : w.Path xs w') :
    w'.calls = w.calls ++ (xs.filterMap Exchange.call?).map (·.1) := by
  induction h with
  | nil w => exact (List.append_nil _).symm
  | @cons w w₁ w' x xs ha _ ih =>
    rw [ih, calls_answer ha, List.filterMap_cons, List.append_assoc]
    cases x.call? <;> rfl

/-! ## Quiet worlds -/

namespace Quiet

variable {w w' : World} (hw : w.Quiet)
include hw

/-- A config map is created under a key that is free. -/
theorem answer_createMap (key : ObjectKey) (map : ConfigMap) :
    w.answer (.createMap key map) =
      if w.held key = none then (.ok (), { w with server := w.server.put key map }) else (.error .conflict, w) := by
  change w.contact (·.create key map) = _
  rw [hw.contact_eq, hw.create_eq]
  by_cases hfree : w.held key = none
  · have hnot : ¬w.server.maps.contains key = true := fun hc => (Server.contains_iff _ _).1 hc hfree
    rw [if_neg hnot, if_pos hfree]
  · rw [if_pos ((Server.contains_iff _ _).2 hfree), if_neg hfree]

/-- A listing tells of the config maps that have the label. -/
theorem answer_listMaps (space label value : String) :
    w.answer (.listMaps space label value) = (.ok (w.server.labelled space label value), w) := by
  change w.contact (·.list space label value) = _
  rw [hw.contact_eq, hw.list_eq]

/-- A look at a key finds what is held there. -/
theorem answer_getMap (key : ObjectKey) : w.answer (.getMap key) = (.ok (w.held key), w) := by
  change w.contact (·.get key) = _
  rw [hw.contact_eq, Server.get_of_faults_nil hw.faults]
  rfl

/-- A removal takes away what there is. -/
theorem answer_deleteMap {key : ObjectKey} (hkey : w.held key ≠ none) :
    w.answer (.deleteMap key) = (.ok (), { w with server := { w.server with maps := w.server.maps.erase key } }) := by
  change w.contact (·.delete key) = _
  rw [hw.contact_eq, Server.delete_of_faults_nil hw.faults hkey]

/-- What was found under a key is replaced. -/
theorem answer_replaceMap {key : ObjectKey} (map : ConfigMap) {m : StoredMap} (hkey : w.held key = some m) :
    w.answer (.replaceMap key m.version map) = (.ok (), { w with server := w.server.put key map }) := by
  change w.server.maps.get? key = some m at hkey
  change w.contact (·.replace key m.version map) = _
  rw [hw.contact_eq, Server.replace, Server.serve_of_faults_nil hw.faults, hkey]
  dsimp only
  rw [if_pos rfl]

/-- Texts of what is held can be set. -/
theorem answer_patchMap {key : ObjectKey} (texts : Labels) {m : StoredMap} (hkey : w.held key = some m) :
    w.answer (.patchMap key texts) = (.ok (), { w with server := w.server.put key (m.map.withTexts texts) }) := by
  change w.server.maps.get? key = some m at hkey
  change w.contact (·.patch key texts) = _
  rw [hw.contact_eq, Server.patch, Server.serve_of_faults_nil hw.faults, hkey]

/-- Nothing can be set where nothing is held. -/
theorem answer_patchMap_absent {key : ObjectKey} (texts : Labels) (hkey : w.held key = none) :
    w.answer (.patchMap key texts) = (.error .absent, w) := by
  change w.server.maps.get? key = none at hkey
  change w.contact (·.patch key texts) = _
  rw [hw.contact_eq, Server.patch, Server.serve_of_faults_nil hw.faults, hkey]

/-- Nor can anything be taken away there. -/
theorem answer_deleteMap_absent {key : ObjectKey} (hkey : w.held key = none) :
    w.answer (.deleteMap key) = (.error .absent, w) := by
  have hnot : ¬w.server.maps.contains key = true := fun hc => (Server.contains_iff _ _).1 hc hkey
  change w.contact (·.delete key) = _
  rw [hw.contact_eq, Server.delete, Server.serve_of_faults_nil hw.faults, if_neg hnot]

/-- Storing a config map, a world stays quiet. -/
theorem put (key : ObjectKey) (map : ConfigMap) : Quiet { w with server := w.server.put key map } :=
  ⟨hw.reachable, hw.faults, hw.races, hw.racing⟩

/-- So it does when one is taken away. -/
theorem erase (key : ObjectKey) : Quiet { w with server := { w.server with maps := w.server.maps.erase key } } :=
  ⟨hw.reachable, hw.faults, hw.races, hw.racing⟩

/-- A quiet world stays quiet, and a key that is not written to holds what it held or is free as it was. -/
theorem step {x : Exchange} (h : w.answer x.request = (x.reply, w')) :
    w'.Quiet ∧ ∀ key, ¬x.Writes key → w'.held key = w.held key := by
  obtain ⟨r, reply⟩ := x
  cases r with
  | createMap k map =>
    change w.answer (.createMap k map) = (reply, w') at h
    rw [hw.answer_createMap] at h
    split at h
    · cases h
      exact ⟨hw.put _ _, fun key hkey => Server.held_put_of_ne _ _ (Ne.symm hkey)⟩
    · cases h
      exact ⟨hw, fun _ _ => rfl⟩
  | listMaps space label value =>
    change w.answer (.listMaps space label value) = (reply, w') at h
    rw [hw.answer_listMaps] at h
    cases h
    exact ⟨hw, fun _ _ => rfl⟩
  | getMap k =>
    change w.answer (.getMap k) = (reply, w') at h
    rw [hw.answer_getMap] at h
    cases h
    exact ⟨hw, fun _ _ => rfl⟩
  | replaceMap k version map =>
    change w.contact (·.replace k version map) = (reply, w') at h
    rw [hw.contact_eq, Server.replace, Server.serve_of_faults_nil hw.faults] at h
    split at h
    · cases h
      exact ⟨hw, fun _ _ => rfl⟩
    · split at h
      · cases h
        exact ⟨hw.put _ _, fun key hkey => Server.held_put_of_ne _ _ (Ne.symm hkey)⟩
      · cases h
        exact ⟨hw, fun _ _ => rfl⟩
  | patchMap k texts =>
    change w.answer (.patchMap k texts) = (reply, w') at h
    cases hheld : w.held k with
    | none =>
      rw [hw.answer_patchMap_absent texts hheld] at h
      cases h
      exact ⟨hw, fun _ _ => rfl⟩
    | some m =>
      rw [hw.answer_patchMap texts hheld] at h
      cases h
      exact ⟨hw.put _ _, fun key hkey => Server.held_put_of_ne _ _ (Ne.symm hkey)⟩
  | deleteMap k =>
    change w.answer (.deleteMap k) = (reply, w') at h
    by_cases hheld : w.held k = none
    · rw [hw.answer_deleteMap_absent hheld] at h
      cases h
      exact ⟨hw, fun _ _ => rfl⟩
    · rw [hw.answer_deleteMap hheld] at h
      cases h
      exact ⟨hw.erase _, fun key hkey => (Server.held_erase _ _ _).trans (if_neg (Ne.symm hkey))⟩
  | listObjects kind space activeOnly =>
    change w.contact (·.listObjects kind space activeOnly) = (reply, w') at h
    rw [hw.contact_eq, Server.listObjects, Server.serve_of_faults_nil hw.faults] at h
    cases h
    exact ⟨hw, fun _ _ => rfl⟩
  | install | query | log | print | now =>
    cases h
    exact ⟨⟨hw.reachable, hw.faults, hw.races, hw.racing⟩, fun _ _ => rfl⟩

end Quiet

/-- The same for lists of exchanges. -/
theorem Path.quiet {w w' : World} {xs : List Exchange} (h : w.Path xs w') (hw : w.Quiet) :
    w'.Quiet ∧ ∀ key, (∀ x ∈ xs, ¬x.Writes key) → w'.held key = w.held key := by
  induction h with
  | nil w => exact ⟨hw, fun _ _ => rfl⟩
  | @cons w w₁ w' x xs ha _ ih =>
    obtain ⟨hw₁, hheld₁⟩ := hw.step ha
    obtain ⟨hw', hheld⟩ := ih hw₁
    refine ⟨hw', fun key hkey => ?_⟩
    rw [hheld key fun y hy => hkey y (List.mem_cons_of_mem _ hy), hheld₁ key (hkey x List.mem_cons_self)]

/-! ## Worlds beside the quiet ones -/

/-- The same world, with a server that can be reached, does not fail and has no other clients. -/
def alone (w : World) : World :=
  { w with
    reachable := true
    server := { w.server with faults := [], races := [], racing := false } }

theorem quiet_alone (w : World) : w.alone.Quiet := ⟨rfl, rfl, rfl, rfl⟩

theorem Quiet.alone_eq {w : World} (hw : w.Quiet) : w.alone = w := by
  obtain ⟨hreachable, hfaults, hraces, hracing⟩ := hw
  obtain ⟨⟨maps, nextVersion, objects, faults, races, racing⟩, reachable, _⟩ := w
  dsimp only at hreachable hfaults hraces hracing
  subst hreachable hfaults hraces hracing
  rfl

end World

namespace Program

variable {α : Type}

/-- A program that comes to its end by the replies of a world is run to that end in it. -/
theorem run_of_yields {p : Program α} {xs : List Exchange} {a : α} {w w' : World} (h : p.Yields xs a) (hp : w.Path xs w') :
    p.run w = (a, w') := by
  induction p generalizing xs w with
  | done c =>
    obtain ⟨rfl, rfl⟩ := done_yields_iff.1 h
    rw [World.path_nil_iff.1 hp, run_done]
  | send r next ih =>
    obtain ⟨reply, ys, rfl, hrest⟩ := send_yields_iff.1 h
    obtain ⟨w₁, hanswer, hpath⟩ := World.path_cons_iff.1 hp
    rw [run_send, hanswer]
    exact ih reply hrest hpath

/-- A program that is run in a world meets no failure of the server and no other client: it is told, and leaves of the config maps,
what it would be told and leave without them. -/
structure RunsAlone (p : Program α) (w : World) : Prop where
  exchanges : p.exchanges w = p.exchanges w.alone
  held : (p.run w).2.held = (p.run w.alone).2.held

/-- A program that is run alone comes to the same end as in the quiet world. -/
theorem RunsAlone.result {p : Program α} {w : World} (h : p.RunsAlone w) : (p.run w).1 = (p.run w.alone).1 := by
  have hyields : p.Yields (p.exchanges w.alone) (p.run w).1 := h.exchanges ▸ p.run_yields w
  rw [run_of_yields hyields (p.run_path w.alone)]

/-- A program that is run alone calls the installer as in the quiet world. -/
theorem RunsAlone.calls {p : Program α} {w : World} (h : p.RunsAlone w) : (p.run w).2.calls = (p.run w.alone).2.calls := by
  rw [(p.run_path w).calls, (p.run_path w.alone).calls, h.exchanges]
  rfl

/-- In a quiet world every program runs alone. -/
theorem runsAlone_of_quiet (p : Program α) {w : World} (hw : w.Quiet) : p.RunsAlone w := by
  constructor <;> rw [hw.alone_eq]

end Program

end TrainingJobs

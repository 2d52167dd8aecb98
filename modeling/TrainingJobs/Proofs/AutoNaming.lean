import TrainingJobs.Proofs.FreeNumbers
import TrainingJobs.Proofs.Registering

/-!
# Names that are found by number

With automatic names a registration whose name is taken goes on with the first number that no record of the family carries.
Beside nobody else that is the same number at every attempt, and the name it makes can be the name of another family: with a
job `job-1` of its own, the first member of `job` can never be named (`auto_naming_of_others_false`). This is the only way for
it to find no name (`auto_naming_granted_iff`).
-/

namespace TrainingJobs

/-! ## The first number that is not used -/

namespace Server

/-- A config map of a namespace carries a number of a family. -/
def Carries (s : Server) (space family : String) (index : Nat) : Prop :=
  ∃ name stored, s.held ⟨space, name⟩ = some stored ∧ stored.map.label? Keys.familyNameLabel = some family ∧
    (Record.ofConfigMap name space stored.map).familyIndex = index

/-- The first number from 1 on that no config map of a namespace carries for a family. -/
structure FirstUnused (s : Server) (space family : String) (index : Nat) : Prop where
  positive : 1 ≤ index
  unused : ¬s.Carries space family index
  first : ∀ j, 1 ≤ j → j < index → s.Carries space family j

/-- The siblings that a listing finds are the config maps that carry a number of the family. -/
theorem mem_siblings_iff {s : Server} {space family : String} {index : Nat} :
    index ∈ ((s.labelled space Keys.familyNameLabel family).map fun e => Record.ofConfigMap e.1 space e.2).map (·.familyIndex) ↔
      s.Carries space family index := by
  simp only [labelled, List.map_map, List.mem_map, List.mem_filter, Function.comp_apply, Bool.and_eq_true, beq_iff_eq]
  constructor
  · rintro ⟨⟨⟨_, name⟩, stored⟩, ⟨hmem, rfl, hlabel⟩, hindex⟩
    exact ⟨name, stored, SortedTable.mem_entries_iff.1 hmem, hlabel, hindex⟩
  · rintro ⟨name, stored, hheld, hlabel, hindex⟩
    exact ⟨(⟨space, name⟩, stored), ⟨SortedTable.mem_entries_iff.2 hheld, rfl, hlabel⟩, hindex⟩

/-- The number that the next member of a family gets is the first that the family does not use. -/
theorem firstUnused_smallestUnoccupiedIndex (s : Server) (space family : String) :
    s.FirstUnused space family (smallestUnoccupiedIndex
      ((s.labelled space Keys.familyNameLabel family).map fun e => Record.ofConfigMap e.1 space e.2)) := by
  obtain ⟨hpos, hnot, hbelow⟩ := leastFree_spec
    (((s.labelled space Keys.familyNameLabel family).map fun e => Record.ofConfigMap e.1 space e.2).map (·.familyIndex))
  exact ⟨hpos, fun hc => hnot (mem_siblings_iff.2 hc), fun j hj hlt => mem_siblings_iff.1 (hbelow j hj hlt)⟩

/-- There is only one such number. -/
theorem FirstUnused.unique {s : Server} {space family : String} {i j : Nat} (hi : s.FirstUnused space family i)
    (hj : s.FirstUnused space family j) : i = j := by
  rcases Nat.lt_trichotomy i j with hlt | heq | hgt
  · exact absurd (hj.first i hi.positive hlt) hi.unused
  · exact heq
  · exact absurd (hi.first j hj.positive hgt) hj.unused

/-! ## Nobody interferes -/

/-- A reply to a request of a registration tells what a server holds: no request fails but the creation of a name that is
taken, and nobody has stored anything in between. -/
def Answers (s : Server) : Exchange → Prop
  | ⟨.createMap key _, .ok _⟩ => s.held key = none
  | ⟨.createMap key _, .error e⟩ => e = .conflict ∧ s.held key ≠ none
  | ⟨.listMaps space label value, reply⟩ => reply = .ok (s.labelled space label value)
  | _ => True

end Server

namespace World

/-- A world in which the server can be reached, no failure is to come and there are no other clients. -/
structure Quiet (w : World) : Prop where
  reachable : w.reachable = true
  faults : w.server.faults = []
  races : w.server.races = []
  racing : w.server.racing = false

namespace Quiet

variable {w w' : World} (hw : w.Quiet)
include hw

theorem contact_eq {α : Type} (request : Server → Except ApiError α × Server) :
    w.contact request = ((request w.server).1, { w with server := (request w.server).2 }) := by
  exact contact_of_reachable hw.reachable request

/-- A creation is refused only when its key is taken. -/
theorem create_eq (key : ObjectKey) (map : ConfigMap) :
    w.server.create key map =
      if w.server.maps.contains key then (.error .conflict, w.server) else (.ok (), w.server.put key map) := by
  have hraced : w.server.letRaceRun key.space = w.server := by
    unfold Server.letRaceRun
    rw [hw.races]
  rw [Server.create, Server.serve_of_faults_nil hw.faults, hraced]

/-- A listing finds what is there and changes nothing. -/
theorem list_eq (space label value : String) :
    w.server.list space label value = (.ok (w.server.labelled space label value), w.server) := by
  rw [Server.list, Server.serve_of_faults_nil hw.faults, hw.racing]
  rfl

/-- The reply to a creation or a listing is the true one. -/
theorem answers {x : Exchange} (h : w.answer x.request = (x.reply, w')) : w.server.Answers x := by
  obtain ⟨r, reply⟩ := x
  cases r with
  | createMap key map =>
    change w.contact (·.create key map) = (reply, w') at h
    rw [hw.contact_eq, hw.create_eq] at h
    by_cases hc : w.server.maps.contains key = true
    · rw [if_pos hc] at h
      cases h
      exact ⟨rfl, (Server.contains_iff _ _).1 hc⟩
    · rw [if_neg hc] at h
      cases h
      rw [Server.contains_iff, Classical.not_not] at hc
      exact hc
  | listMaps space label value =>
    change w.contact (·.list space label value) = (reply, w') at h
    rw [hw.contact_eq, hw.list_eq] at h
    cases h
    rfl
  | _ => trivial

/-- A request in vain leaves the world as it is. -/
theorem eq_of_inVain {x : Exchange} (h : w.answer x.request = (x.reply, w')) (hx : Registration.InVain x) : w' = w := by
  unfold Registration.InVain at hx
  split at hx
  · rename_i space label value reply
    change w.contact (·.list space label value) = (reply, w') at h
    rw [hw.contact_eq, hw.list_eq] at h
    cases h
    rfl
  · rename_i key map e
    change w.contact (·.create key map) = (.error e, w') at h
    rw [hw.contact_eq, hw.create_eq] at h
    by_cases hc : w.server.maps.contains key = true
    · rw [if_pos hc] at h
      cases h
      rfl
    · rw [if_neg hc] at h
      cases h
  · exact hx.elim

/-- Requests in vain leave the world as it is, and the replies to them are the true ones. -/
theorem path_inVain {xs : List Exchange} (h : w.Path xs w') (hx : ∀ x ∈ xs, Registration.InVain x) :
    w' = w ∧ ∀ x ∈ xs, w.server.Answers x := by
  induction xs with
  | nil => exact ⟨path_nil_iff.1 h, by simp⟩
  | cons x xs ih =>
    obtain ⟨w₁, ha, hrest⟩ := path_cons_iff.1 h
    rw [hw.eq_of_inVain ha (hx x List.mem_cons_self)] at hrest
    obtain ⟨heq, hxs⟩ := ih hrest fun y hy => hx y (List.mem_cons_of_mem x hy)
    refine ⟨heq, fun y hy => ?_⟩
    rcases List.mem_cons.1 hy with rfl | hy
    · exact hw.answers ha
    · exact hxs y hy

/-- In a quiet world all replies to a registration are the true ones, about the config maps as they were at first. -/
theorem register_answers (retries : Nat) (requested : JobName) (space : String) (autoName : Bool) :
    ∀ x ∈ (Registration.register retries requested space autoName).exchanges w, w.server.Answers x := by
  have hpath := (Registration.register retries requested space autoName).run_path w
  obtain ⟨-, hvain⟩ | ⟨before, index, heq, hvain, -⟩ := Registration.register_yields (Program.run_yields _ w)
  · exact (hw.path_inVain hpath hvain).2
  · rw [heq] at hpath ⊢
    obtain ⟨w₁, hbefore, hlast⟩ := path_append_iff.1 hpath
    obtain ⟨w₂, ha, -⟩ := path_cons_iff.1 hlast
    obtain ⟨rfl, hall⟩ := hw.path_inVain hbefore hvain
    intro x hx
    rcases List.mem_append.1 hx with hx | hx
    · exact hall x hx
    · rw [List.mem_singleton.1 hx]
      exact hw.answers ha

end Quiet

end World

namespace Registration

variable {s : Server} {requested : JobName} {space : String} {xs : List Exchange}
  {result : Except RegistrationError JobIdentity}

/-- The loop over numbered names tries the same number at every attempt, as long as nobody interferes. -/
theorem registerNumbered_result {index attempts left : Nat} (hs : ∀ x ∈ xs, s.Answers x)
    (hindex : s.FirstUnused space requested.text index)
    (h : (registerNumbered requested space attempts left).Yields xs result) :
    result = if left ≠ 0 ∧ s.held ⟨space, candidateName requested.text index⟩ = none
      then .ok ⟨requested, candidateName requested.text index, index⟩ else .error (.exhausted requested.text attempts) := by
  induction left generalizing xs with
  | zero =>
    obtain ⟨rfl, rfl⟩ := Program.done_yields_iff.1 h
    rfl
  | succ left ih =>
    obtain ⟨_, siblings, zs, hlist, h, rfl⟩ := Program.andThen_yields_iff.1 h
    obtain ⟨maps, rfl, rfl⟩ | ⟨e, rfl, rfl⟩ := Registry.listFamily_yields hlist
    · have hmaps : maps = s.labelled space Keys.familyNameLabel requested.text := Except.ok.inj (hs _ List.mem_cons_self)
      have hnumber := (hmaps ▸ s.firstUnused_smallestUnoccupiedIndex space requested.text).unique hindex
      obtain ⟨_, created, us, hcreate, h, rfl⟩ := Program.andThen_yields_iff.1 h
      simp only [hnumber] at hcreate h
      obtain ⟨rfl, rfl⟩ | ⟨rfl, rfl⟩ | ⟨e, he, rfl, rfl⟩ := Registry.create_yields hcreate
      · obtain ⟨rfl, rfl⟩ := Program.done_yields_iff.1 h
        have hfree : s.held ⟨space, candidateName requested.text index⟩ = none :=
          hs (Record.candidate requested space index).stored (by simp)
        rw [if_pos ⟨Nat.succ_ne_zero left, hfree⟩]
        rfl
      · have htaken : s.held ⟨space, candidateName requested.text index⟩ ≠ none :=
          (hs (Registry.taken (Record.candidate requested space index)) (by simp)).2
        have hrest := ih (fun x hx => hs x (by simp [hx])) h
        rw [hrest, if_neg (fun hc => htaken hc.2), if_neg (fun hc => htaken hc.2)]
      · have hrefused : s.Answers ⟨.createMap (Record.candidate requested space index).key
            (Record.candidate requested space index).toConfigMap, .error e⟩ := hs _ (by simp)
        exact absurd hrefused.1 he
    · cases hs _ List.mem_cons_self

/-- A registration that nobody interferes with is granted the name itself when it is free, and else goes on with numbered names
or refuses. -/
theorem register_bare {retries : Nat} {autoName : Bool} (hs : ∀ x ∈ xs, s.Answers x)
    (h : (register retries requested space autoName).Yields xs result) :
    (s.held ⟨space, requested.text⟩ = none ∧ result = .ok ⟨requested, requested.text, 0⟩) ∨
      s.held ⟨space, requested.text⟩ ≠ none ∧ ∃ zs, (∀ x ∈ zs, s.Answers x) ∧
        (if autoName then registerNumbered requested space retries retries
          else .done (.error (.nameCollision requested.text))).Yields zs result := by
  obtain ⟨_, created, zs, hcreate, h, rfl⟩ := Program.andThen_yields_iff.1 h
  obtain ⟨rfl, rfl⟩ | ⟨rfl, rfl⟩ | ⟨e, he, rfl, rfl⟩ := Registry.create_yields hcreate
  · obtain ⟨rfl, rfl⟩ := Program.done_yields_iff.1 h
    exact .inl ⟨hs (Record.candidate requested space 0).stored (by simp), rfl⟩
  · have htaken : s.held ⟨space, requested.text⟩ ≠ none :=
      (hs (Registry.taken (Record.candidate requested space 0)) (by simp)).2
    exact .inr ⟨htaken, zs, fun x hx => hs x (by simp [hx]), h⟩
  · have hrefused : s.Answers ⟨.createMap (Record.candidate requested space 0).key
        (Record.candidate requested space 0).toConfigMap, .error e⟩ := hs _ (by simp)
    exact absurd hrefused.1 he

/-- What comes of a registration with automatic names that nobody interferes with. -/
theorem register_result {index retries : Nat} (hs : ∀ x ∈ xs, s.Answers x)
    (hindex : s.FirstUnused space requested.text index)
    (h : (register retries requested space true).Yields xs result) :
    result = if s.held ⟨space, requested.text⟩ = none then .ok ⟨requested, requested.text, 0⟩
      else if retries ≠ 0 ∧ s.held ⟨space, candidateName requested.text index⟩ = none
      then .ok ⟨requested, candidateName requested.text index, index⟩ else .error (.exhausted requested.text retries) := by
  obtain ⟨hfree, rfl⟩ | ⟨htaken, zs, hzs, h⟩ := register_bare hs h
  · rw [if_pos hfree]
  · rw [if_neg htaken]
    exact registerNumbered_result hzs hindex h

/-- What comes of a registration of the name itself that nobody interferes with. -/
theorem register_plain_result {retries : Nat} (hs : ∀ x ∈ xs, s.Answers x)
    (h : (register retries requested space false).Yields xs result) :
    result = if s.held ⟨space, requested.text⟩ = none then .ok ⟨requested, requested.text, 0⟩
      else .error (.nameCollision requested.text) := by
  obtain ⟨hfree, rfl⟩ | ⟨htaken, zs, -, h⟩ := register_bare hs h
  · rw [if_pos hfree]
  · rw [if_neg htaken]
    exact (Program.done_yields_iff.1 h).2

end Registration

/-- With automatic names and at least one attempt, and as long as nobody interferes, a registration is granted a name just when
the name itself is free or the one with the first number that the family does not use. Else it gives up after its attempts,
though other numbers are free. -/
theorem auto_naming_granted_iff (w : World) (retries : Nat) (requested : JobName) (space : String) (hretries : 1 ≤ retries)
    (h : ∀ x ∈ (Registration.register retries requested space true).exchanges w, w.server.Answers x) :
    let result := ((Registration.register retries requested space true).run w).1
    ∃ index, w.server.FirstUnused space requested.text index ∧
      ((∃ id, result = .ok id) ↔
        w.server.held ⟨space, requested.text⟩ = none ∨ w.server.held ⟨space, candidateName requested.text index⟩ = none) ∧
      (∀ id, result = .ok id → id = if w.server.held ⟨space, requested.text⟩ = none then ⟨requested, requested.text, 0⟩
        else ⟨requested, candidateName requested.text index, index⟩) ∧
      (∀ e, result = .error e → e = .exhausted requested.text retries) := by
  intro result
  obtain ⟨index, hindex⟩ : ∃ index, w.server.FirstUnused space requested.text index :=
    ⟨_, w.server.firstUnused_smallestUnoccupiedIndex space requested.text⟩
  refine ⟨index, hindex, ?_⟩
  have hresult := Registration.register_result h hindex (Program.run_yields _ w)
  have hpos : retries ≠ 0 := Nat.one_le_iff_ne_zero.1 hretries
  change result = _ at hresult
  rw [hresult]
  by_cases hbare : w.server.held ⟨space, requested.text⟩ = none
  · rw [if_pos hbare, if_pos hbare]
    exact ⟨⟨fun _ => .inl hbare, fun _ => ⟨_, rfl⟩⟩, fun id hid => (Except.ok.inj hid).symm, nofun⟩
  · rw [if_neg hbare, if_neg hbare]
    split
    · rename_i hfree
      exact ⟨⟨fun _ => .inr hfree.2, fun _ => ⟨_, rfl⟩⟩, fun id hid => (Except.ok.inj hid).symm, nofun⟩
    · rename_i hnone
      refine ⟨⟨nofun, ?_⟩, nofun, fun e he => (Except.error.inj he).symm⟩
      rintro (hfree | hfree)
      · exact absurd hfree hbare
      · exact absurd ⟨hpos, hfree⟩ hnone

/-- The name `job-1`. -/
def JobName.jobOne : JobName := ⟨"job-1", by decide, by decide, by decide⟩

/-- A world with a job `job` and a job `job-1`, each the first of its family. -/
def namedAlike : World :=
  { server := { maps := .ofList [
      (⟨"team-a", "job"⟩, ⟨{ labels := some (Record.labels { familyName := "job" }) }, 1⟩),
      (⟨"team-a", "job-1"⟩, ⟨{ labels := some (Record.labels { familyName := "job-1" }) }, 2⟩)] } }

theorem quiet_namedAlike : namedAlike.Quiet := ⟨rfl, rfl, rfl, rfl⟩

/-- Among these another `job-1` is granted the name `job-1-1`. -/
theorem auto_naming_granted_of_sibling :
    1 ≤ 5 ∧ namedAlike.Quiet ∧ namedAlike.server.held ⟨"team-a", "job-1"⟩ ≠ none ∧
      ((Registration.register 5 .jobOne "team-a" true).run namedAlike).1 = .ok ⟨.jobOne, "job-1-1", 1⟩ := by
  obtain ⟨index, hindex, hiff, hid, -⟩ := auto_naming_granted_iff namedAlike 5 .jobOne "team-a" (by decide)
    (quiet_namedAlike.register_answers _ _ _ _)
  obtain rfl : index = 1 := hindex.unique (namedAlike.server.firstUnused_smallestUnoccupiedIndex "team-a" "job-1")
  have htaken : namedAlike.server.held ⟨"team-a", JobName.jobOne.text⟩ ≠ none := nofun
  obtain ⟨id, hok⟩ := hiff.2 (.inr rfl)
  refine ⟨by decide, quiet_namedAlike, htaken, ?_⟩
  rw [hok, hid id hok, if_neg htaken]
  rfl

/-- Names that others hold are not tried around: with `job` and `job-1` taken, by jobs of different families, a registration of
another `job` tries `job-1` at every attempt and gives up, though `job-2` is free. -/
theorem auto_naming_of_others_false :
    namedAlike.Quiet ∧ namedAlike.server.held ⟨"team-a", "job-2"⟩ = none ∧
      ((Registration.register 5 .job "team-a" true).run namedAlike).1 = .error (.exhausted "job" 5) :=
  ⟨quiet_namedAlike, rfl, rfl⟩

end TrainingJobs

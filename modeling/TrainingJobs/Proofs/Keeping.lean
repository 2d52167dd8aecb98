import TrainingJobs.Proofs.Crowd

/-!
# What all config maps of a server have

A property of keys and contents holds of all config maps of a server, and of those that its other clients have yet to create
(`Server.Only`). What a request has to be so that this stays so is told by the request and the server (`Request.Keeps`); then no
failure and no race breaks it (`World.only_answer`).
-/

namespace TrainingJobs

variable {P : ObjectKey → ConfigMap → Prop}

/-- All config maps of a server have a property, and so have those that other clients are going to create. -/
structure Server.Only (P : ObjectKey → ConfigMap → Prop) (s : Server) : Prop where
  held : ∀ key m, s.held key = some m → P key m.map
  races : ∀ race ∈ s.races, ∀ space, P ⟨space, race.1⟩ race.2

/-- What a request stores has a property: a new config map, another content, the rivals that others make at a listing; and setting
texts keeps it. -/
def Request.Keeps (P : ObjectKey → ConfigMap → Prop) (s : Server) : Request → Prop
  | .createMap key map => P key map
  | .listMaps space label value =>
    ∀ i, i ≤ (s.labelled space label value).length + 1 → P ⟨space, candidateName value i⟩ (Server.rival value i)
  | .replaceMap key _ map => P key map
  | .patchMap key texts => ∀ m, P key m → P key (m.withTexts texts)
  | _ => True

namespace Server.Only

variable {s : Server} {key : ObjectKey} {map : ConfigMap} {space : String}

theorem withFaults (h : s.Only P) (faults : List Fault) : { s with faults := faults }.Only P := ⟨h.held, h.races⟩

theorem put (h : s.Only P) (hmap : P key map) : (s.put key map).Only P where
  held k m hm := by
    rw [held_put] at hm
    split at hm
    · rename_i hk
      cases hm
      exact hk ▸ hmap
    · exact h.held k m hm
  races := h.races

theorem putNew (h : s.Only P) (hmap : P key map) : (s.putNew key map).Only P := by
  unfold Server.putNew
  split
  · exact h
  · exact h.put hmap

theorem erase (h : s.Only P) : { s with maps := s.maps.erase key }.Only P where
  held k m hm := by
    rw [held_erase] at hm
    split at hm
    · cases hm
    · exact h.held k m hm
  races := h.races

theorem letRaceRun (h : s.Only P) (space : String) : (s.letRaceRun space).Only P := by
  unfold Server.letRaceRun
  split
  · exact h
  · rename_i name map rest hraces
    have hrest : { s with races := rest }.Only P :=
      ⟨h.held, fun race hrace => h.races race (by rw [hraces]; exact List.mem_cons_of_mem _ hrace)⟩
    exact hrest.putNew (h.races (name, map) (by rw [hraces]; exact List.mem_cons_self) space)

/-- The rivals come one after the other. -/
theorem letRivalsRun {family : String} {count : Nat} (h : s.Only P)
    (hrivals : ∀ i, i < count → P ⟨space, candidateName family i⟩ (rival family i)) :
    (s.letRivalsRun space family count).Only P := by
  unfold Server.letRivalsRun
  induction count with
  | zero => exact h
  | succ count ih =>
    rw [List.range_succ, List.foldl_append]
    exact (ih fun i hi => hrivals i (Nat.lt_succ_of_lt hi)).putNew (hrivals count (Nat.lt_succ_self count))

/-- A request that is served or fails leaves what it leaves when it is served. -/
theorem serve {α : Type} {verb : Verb} {kind : ObjectKind} {answer : Server → Except ApiError α × Server} (h : s.Only P)
    (hanswer : ∀ faults, (answer { s with faults := faults }).2.Only P) : (s.serve verb kind answer).2.Only P := by
  unfold Server.serve
  split
  · exact h.withFaults _
  · exact hanswer _

/-- A look at a key is served without an effect. -/
theorem get (h : s.Only P) (key : ObjectKey) : (s.get key).2.Only P := by
  have hserved : (s.serve .get .configMaps fun s => (.ok (s.maps.get? key), s)).2.Only P := h.serve h.withFaults
  unfold Server.get
  split
  · rename_i hserve
    rw [hserve] at hserved
    exact hserved
  · exact hserved

end Server.Only

namespace World

variable {w : World}

theorem only_contact {α : Type} {request : Server → Except ApiError α × Server} (h : w.server.Only P)
    (hrequest : (request w.server).2.Only P) : (w.contact request).2.server.Only P := by
  unfold contact
  split
  · exact hrequest
  · exact h

/-- A property that all config maps have is kept by a request that keeps it, whatever fails and whoever comes in between. -/
theorem only_answer {r : Request} (h : w.server.Only P) (hr : r.Keeps P w.server) : (w.answer r).2.server.Only P := by
  cases r with
  | createMap key map =>
    refine only_contact h (h.serve fun faults => ?_)
    have hraced := (h.withFaults faults).letRaceRun key.space
    dsimp only
    split
    · exact hraced
    · exact hraced.put hr
  | listMaps space label value =>
    refine only_contact h (h.serve fun faults => ?_)
    dsimp only
    split
    · exact (h.withFaults faults).letRivalsRun fun i hi => hr i (Nat.le_of_lt_succ hi)
    · exact h.withFaults faults
  | getMap key => exact only_contact h (h.get key)
  | replaceMap key version map =>
    refine only_contact h (h.serve fun faults => ?_)
    dsimp only
    split
    · exact h.withFaults faults
    · split
      · exact (h.withFaults faults).put hr
      · exact h.withFaults faults
  | patchMap key texts =>
    refine only_contact h (h.serve fun faults => ?_)
    dsimp only
    split
    · exact h.withFaults faults
    · rename_i stored hstored
      exact (h.withFaults faults).put (hr _ (h.held key stored hstored))
  | deleteMap key =>
    refine only_contact h (h.serve fun faults => ?_)
    dsimp only
    split
    · exact (h.withFaults faults).erase
    · exact h.withFaults faults
  | listObjects kind space activeOnly => exact only_contact h (h.serve fun faults => h.withFaults faults)
  | install | query | log | print | now => exact h

end World

end TrainingJobs

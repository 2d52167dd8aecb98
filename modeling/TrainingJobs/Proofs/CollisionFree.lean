import TrainingJobs.Proofs.Crowd
import TrainingJobs.Proofs.Registering

/-!
# Registered names are apart

Any number of clients register names while others do what they like with the config maps. A name is granted by the creation of
a record under a key that was free (`Registration.register_yields`), and a key that is taken stays taken until its record is
removed, so that nobody else is granted the name before that (`registration_collision_free`). How the numbers of a family are
chosen plays no part in this.
-/

namespace TrainingJobs

/-- Somebody who registers a name. -/
structure Registrant where
  name : JobName
  space : String
  autoName : Bool := false
  retries : Nat := 5

/-- What a registrant does. -/
def Registrant.program (g : Registrant) : Program (Except RegistrationError JobIdentity) :=
  Registration.register g.retries g.name g.space g.autoName

/-- Registrants in a world. -/
def registrants (w : World) (gs : List Registrant) : Crowd (Except RegistrationError JobIdentity) :=
  ⟨w, gs.map Registrant.program⟩

namespace CollisionFreeAux

variable {w : World} {gs : List Registrant} {turns : List Turn} {i : Nat}

/-- What a registrant still has to do is what some exchanges have made of its registration. -/
theorem reaches_registrant {q : Program (Except RegistrationError JobIdentity)}
    (hq : ((registrants w gs).run turns).clients[i]? = some q) : ∃ g xs, gs[i]? = some g ∧ g.program.Reaches xs q := by
  obtain ⟨p, hp, h⟩ := Crowd.reaches_history hq
  simp only [registrants, List.getElem?_map, Option.map_eq_some_iff] at hp
  obtain ⟨g, hg, rfl⟩ := hp
  exact ⟨g, _, hg, h⟩

/-- A registrant only lists and creates: a request of any other kind would be in the exchanges of a whole registration. -/
theorem request_cases {r : Request} {next : r.Reply → Program (Except RegistrationError JobIdentity)}
    (hq : ((registrants w gs).run turns).clients[i]? = some (.send r next)) :
    (∃ space label value, r = .listMaps space label value) ∨ ∃ key map, r = .createMap key map := by
  obtain ⟨g, xs, -, h⟩ := reaches_registrant hq
  obtain ⟨ys, a, hend⟩ := (next r.someReply).exists_yields
  have hall : g.program.Yields (xs ++ [⟨r, r.someReply⟩] ++ ys) a := (h.snoc r.someReply).trans hend
  have hmem : (⟨r, r.someReply⟩ : Exchange) ∈ xs ++ [⟨r, r.someReply⟩] ++ ys := by simp
  have hvain : ∀ x : Exchange, Registration.InVain x →
      (∃ space label value, x.request = .listMaps space label value) ∨ ∃ key map, x.request = .createMap key map := by
    intro x hx
    unfold Registration.InVain at hx
    split at hx
    · exact .inl ⟨_, _, _, rfl⟩
    · exact .inr ⟨_, _, rfl⟩
    · exact hx.elim
  obtain ⟨-, hxs⟩ | ⟨before, index, heq, hbefore, -⟩ := Registration.register_yields hall
  · exact hvain _ (hxs _ hmem)
  · rw [heq, List.mem_append, List.mem_singleton] at hmem
    rcases hmem with hmem | hmem
    · exact hvain _ (hbefore _ hmem)
    · exact .inr ⟨_, _, congrArg Exchange.request hmem⟩

/-- A key that is taken stays taken at a turn, unless somebody takes away what it holds. -/
theorem held_step {turn : Turn} {key : ObjectKey} (ht : turn ≠ .other (.remove key))
    (h : ((registrants w gs).run turns).world.held key ≠ none) :
    (((registrants w gs).run turns).step turn).world.held key ≠ none := by
  obtain hs | ⟨i, r, next, rfl, hi, hs⟩ | ⟨deed, rfl, hs⟩ := Crowd.step_cases _ turn <;> rw [hs]
  · exact h
  · obtain ⟨m, hm⟩ := Option.ne_none_iff_exists'.1 h
    suffices hgrows : ((registrants w gs).run turns).world.Grows (((registrants w gs).run turns).world.answer r).2 from
      fun hnone => Option.some_ne_none m ((hgrows key m hm).symm.trans hnone)
    obtain ⟨space, label, value, rfl⟩ | ⟨k, map, rfl⟩ := request_cases hi
    · exact World.grows_listMaps rfl
    · exact (World.createMap_cases rfl).1
  · exact Server.held_undergo (fun hd => ht (by rw [hd])) h

/-- A key that is taken stays taken through turns at which nobody takes away what it holds. -/
theorem held_run {later : List Turn} {key : ObjectKey} (ht : .other (.remove key) ∉ later)
    (h : ((registrants w gs).run turns).world.held key ≠ none) :
    ((registrants w gs).run (turns ++ later)).world.held key ≠ none := by
  induction later generalizing turns with
  | nil => rwa [List.append_nil]
  | cons turn rest ih =>
    rw [List.mem_cons, not_or] at ht
    rw [List.append_cons]
    refine ih ht.2 ?_
    rw [Crowd.run_append]
    exact held_step (fun heq => ht.1 heq.symm) h

/-- A registrant is granted a name at a turn of its own, by the creation of the record of the name, whose key was free. -/
theorem granted {turn : Turn} {g : Registrant} {id : JobIdentity} (hg : gs[i]? = some g)
    (h : ((registrants w gs).run turns).Returns turn i (.ok id)) :
    ∃ index, id = (Record.candidate g.name g.space index).identity g.name ∧ turn = .client i ∧
      (∃ next, ((registrants w gs).run turns).clients[i]? = some (.send (.createMap
        (Record.candidate g.name g.space index).key (Record.candidate g.name g.space index).toConfigMap) next)) ∧
      ((registrants w gs).run turns).world.held (Record.candidate g.name g.space index).key = none ∧
      ∃ version, (((registrants w gs).run turns).step turn).world.held (Record.candidate g.name g.space index).key =
        some ⟨(Record.candidate g.name g.space index).toConfigMap, version⟩ := by
  obtain ⟨r, next, rfl, hi, hdone, hworld⟩ := h.inv
  obtain ⟨g', xs, hg', hreach⟩ := reaches_registrant hi
  obtain rfl : g' = g := Option.some.inj (hg'.symm.trans hg)
  have hyields : g'.program.Yields (xs ++ [⟨r, (World.answer _ r).1⟩]) (.ok id) := hdone ▸ hreach.snoc (World.answer _ r).1
  obtain ⟨⟨e, he⟩, -⟩ | ⟨before, index, heq, -, hid⟩ := Registration.register_yields hyields
  · cases he
  · -- The last exchange of the registration is the one of this turn.
    obtain ⟨-, hlast⟩ := List.append_inj' heq rfl
    have hx := List.singleton_inj.1 hlast
    generalize hreply : (World.answer _ r).1 = reply at hx
    cases hx
    obtain ⟨-, ⟨e, he⟩ | ⟨-, hfree, hheld⟩⟩ := World.createMap_cases (Prod.ext hreply rfl)
    · cases he
    · exact ⟨index, Except.ok.inj hid, rfl, ⟨next, hi⟩, hfree, by rw [hworld]; exact hheld⟩

end CollisionFreeAux

open CollisionFreeAux

/-- Registration is free of collisions, whoever takes a turn when. A client that is granted a name is so at a turn at which it
stored the record of the name, with its family and its number, under a key that was free just before; and until somebody
removes that record, nobody is granted the same name in the namespace. -/
theorem registration_collision_free (w : World) (gs : List Registrant) (before : List Turn) (turn : Turn) (i : Nat)
    (g : Registrant) (id : JobIdentity) (hg : gs[i]? = some g)
    (h : ((registrants w gs).run before).Returns turn i (.ok id)) :
    let crowd := (registrants w gs).run before
    let key : ObjectKey := ⟨g.space, id.resolved⟩
    let map := (Record.candidate g.name g.space id.familyIndex).toConfigMap
    (turn = .client i ∧ (∃ next, crowd.clients[i]? = some (.send (.createMap key map) next)) ∧
      crowd.world.held key = none ∧ ∃ version, (crowd.step turn).world.held key = some ⟨map, version⟩) ∧
    (∀ (later : List Turn) (turn' : Turn) (j : Nat) (g' : Registrant) (id' : JobIdentity),
      .other (.remove key) ∉ later → gs[j]? = some g' → g'.space = g.space →
      ((crowd.step turn).run later).Returns turn' j (.ok id') → id'.resolved ≠ id.resolved) ∧
    (id.requested = g.name ∧ id.resolved = candidateName g.name.text id.familyIndex ∧
      map.label? Keys.familyNameLabel = some g.name.text ∧
      map.label? Keys.familyIndexLabel = some (toString id.familyIndex)) := by
  obtain ⟨index, rfl, hturn, hnext, hfree, version, hheld⟩ := granted hg h
  refine ⟨⟨hturn, hnext, hfree, version, hheld⟩, ?_, rfl, rfl, Record.familyName_toConfigMap _,
    Record.familyIndex_toConfigMap _⟩
  intro later turn' j g' id' hlater hg' hspace h' hsame
  have hrun : (((registrants w gs).run before).step turn).run later =
      (registrants w gs).run (before ++ [turn] ++ later) := by
    rw [Crowd.run_append, Crowd.run_append]
    rfl
  rw [hrun] at h'
  obtain ⟨index', rfl, -, -, hfree', -⟩ := granted hg' h'
  -- The key of the second grant is that of the first, and it has been taken ever since.
  have hkey : (Record.candidate g'.name g'.space index').key = (Record.candidate g.name g.space index).key := by
    show ObjectKey.mk _ _ = ObjectKey.mk _ _
    rw [show g'.space = g.space from hspace]
    exact congrArg (ObjectKey.mk g.space) hsame
  rw [hkey] at hfree'
  refine held_run hlater ?_ hfree'
  rw [Crowd.run_append]
  exact fun hnone => Option.some_ne_none _ (hheld.symm.trans hnone)

/-- Two clients that ask for the same name, of which the second takes a numbered one as well. -/
def twoRegistrants : List Registrant :=
  [{ name := .job, space := "team-a" }, { name := .job, space := "team-a", autoName := true }]

/-- The one that goes first is granted the name, the other one, which finds it taken and looks at the family, the first
numbered name. -/
theorem two_registrants_apart :
    (({} : World).held ⟨"team-a", "job"⟩ = none ∧
      ((registrants {} twoRegistrants).run []).Returns (.client 0) 0 (.ok ⟨.job, "job", 0⟩)) ∧
    (((registrants {} twoRegistrants).run [.client 0]).run [.client 1, .client 1]).Returns (.client 1) 1
      (.ok ⟨.job, "job-1", 1⟩) ∧ "job-1" ≠ "job" := by
  have hfirst : ((registrants {} twoRegistrants).run []).Returns (.client 0) 0 (.ok ⟨.job, "job", 0⟩) := ⟨rfl, rfl⟩
  have hsecond : (((registrants {} twoRegistrants).run [.client 0]).run [.client 1, .client 1]).Returns (.client 1) 1
      (.ok ⟨.job, "job-1", 1⟩) := ⟨rfl, rfl⟩
  obtain ⟨⟨-, -, hfree, -⟩, hapart, -⟩ := registration_collision_free {} twoRegistrants [] (.client 0) 0 _ _ rfl hfirst
  refine ⟨⟨hfree, hfirst⟩, hsecond, ?_⟩
  exact hapart [.client 1, .client 1] (.client 1) 1 _ _ (by simp) rfl rfl hsecond

end TrainingJobs

import TrainingJobs.World

/-!
# What requests do to the config maps

Statements about `Server` and `World.answer`: for each kind of request, all that can come of it. Other clients
(`Server.races`, `Server.racing`) only fill keys that are free, so they take nothing away (`Server.Grows`); a request that
fails does no more than let them (`World.Grows`). What one request does is said once here, and everything that is known of
a run of requests is derived from it.
-/

namespace TrainingJobs

/-! ## Texts of a config map -/

/-- What a table gives after the bindings of another one have been put into it: theirs, and its own behind them. -/
theorem SortedTable.get?_insertAll {κ ν : Type} [Ord κ] [Std.TransOrd κ] [Std.LawfulEqOrd κ] (t u : SortedTable κ ν) (k : κ) :
    (t.insertAll u.entries).get? k = (u.get? k).or (t.get? k) := by
  obtain ⟨entries, hasc⟩ := u
  simp only [get?, insertAll]
  induction entries generalizing t with
  | nil => simp [Bindings.lookup?]
  | cons head rest ih =>
    obtain ⟨k₀, v₀⟩ := head
    have hrest : Bindings.Ascending rest := (List.pairwise_cons.1 hasc).2
    rw [List.foldl_cons, ih _ hrest, Bindings.lookup?]
    by_cases hk : compare k k₀ = .eq
    · -- The first key is not bound again further on.
      have hnone : Bindings.lookup? k rest = none := by
        rw [Std.LawfulEqOrd.eq_of_compare hk]
        exact Bindings.lookup?_eq_none_of_lt (List.pairwise_cons.1 hasc).1
      have hself : Bindings.lookup? k (t.insert k₀ v₀).entries = some v₀ := (t.get?_insert k₀ k v₀).trans (if_pos hk)
      rw [hnone, hself, if_pos hk]
      rfl
    · have hother : Bindings.lookup? k (t.insert k₀ v₀).entries = Bindings.lookup? k t.entries :=
        (t.get?_insert k₀ k v₀).trans (if_neg hk)
      rw [hother, if_neg hk]

/-- A config map with some texts set has those, and its own where they say nothing. -/
theorem ConfigMap.text?_withTexts (m : ConfigMap) (texts : Labels) (name : String) :
    (m.withTexts texts).text? name = (texts.get? name).or (m.text? name) := by
  simp only [text?, withTexts, Option.bind_some, SortedTable.get?_insertAll]
  cases m.data <;> rfl

/-- Texts that are set where there are none are all that there are. -/
theorem ConfigMap.data_withTexts_of_none {m : ConfigMap} (h : m.data = none) (texts : Labels) :
    (m.withTexts texts).data = some texts := by
  rw [withTexts, h]
  refine congrArg some (SortedTable.ext_get? fun name => ?_)
  rw [Option.getD_none, SortedTable.get?_insertAll, SortedTable.get?_empty, Option.or_none]

/-! ## Keys of a server -/

namespace Server

/-- The config map that is held under a key. -/
def held (s : Server) (key : ObjectKey) : Option StoredMap := s.maps.get? key

theorem contains_iff (s : Server) (key : ObjectKey) : s.maps.contains key = true ↔ s.held key ≠ none := by
  simp only [SortedTable.contains, held, Option.isSome_iff_ne_none]

theorem held_put (s : Server) (key k : ObjectKey) (map : ConfigMap) :
    (s.put key map).held k = if k = key then some ⟨map, s.nextVersion⟩ else s.held k := by
  simp only [held, put, SortedTable.get?_insert, ObjectKey.compare_eq_iff]

@[simp] theorem held_put_self (s : Server) (key : ObjectKey) (map : ConfigMap) :
    (s.put key map).held key = some ⟨map, s.nextVersion⟩ := by
  simp [held_put]

theorem held_put_of_ne (s : Server) {key k : ObjectKey} (map : ConfigMap) (h : k ≠ key) :
    (s.put key map).held k = s.held k := by
  simp [held_put, h]

/-- What is held after the config map of a key has been taken away. -/
theorem held_erase (s : Server) (key k : ObjectKey) :
    { s with maps := s.maps.erase key }.held k = if k = key then none else s.held k := by
  simp only [held, SortedTable.get?_erase, ObjectKey.compare_eq_iff]

/-! ## Other clients only fill free keys -/

/-- All that a server holds, another holds too. -/
def Grows (s s' : Server) : Prop := ∀ key m, s.held key = some m → s'.held key = some m

theorem Grows.refl (s : Server) : s.Grows s := fun _ _ h => h

theorem Grows.trans {s s' s'' : Server} (h : s.Grows s') (h' : s'.Grows s'') : s.Grows s'' :=
  fun key m hm => h' key m (h key m hm)

/-- A key that is free later was free before. -/
theorem Grows.free {s s' : Server} (h : s.Grows s') {key : ObjectKey} (hf : s'.held key = none) : s.held key = none := by
  cases hm : s.held key with
  | none => rfl
  | some m =>
    rw [h key m hm] at hf
    cases hf

/-- Putting something under a free key takes nothing away. -/
theorem grows_put {s : Server} {key : ObjectKey} (map : ConfigMap) (h : s.held key = none) : s.Grows (s.put key map) := by
  intro k m hm
  have hne : k ≠ key := by
    rintro rfl
    rw [h] at hm
    cases hm
  rw [held_put_of_ne s map hne, hm]

theorem grows_putNew (s : Server) (key : ObjectKey) (map : ConfigMap) : s.Grows (s.putNew key map) := by
  unfold putNew
  split
  · exact Grows.refl s
  · rename_i h
    rw [contains_iff, Classical.not_not] at h
    exact grows_put map h

theorem grows_letRaceRun (s : Server) (space : String) : s.Grows (s.letRaceRun space) := by
  unfold letRaceRun
  split
  · exact Grows.refl s
  · rename_i name map rest _
    exact grows_putNew { s with races := rest } ⟨space, name⟩ map

theorem grows_letRivalsRun (s : Server) (space family : String) (count : Nat) :
    s.Grows (s.letRivalsRun space family count) := by
  unfold letRivalsRun
  generalize List.range count = indexes
  induction indexes generalizing s with
  | nil => exact Grows.refl s
  | cons i rest ih => exact (grows_putNew s _ _).trans (ih _)

/-! ## One request -/

section Requests

variable {s s' : Server} {key : ObjectKey} {map : ConfigMap}

/-- A request fails without an effect, or it is served; either way the failures to come can be others afterwards. -/
theorem serve_cases {α : Type} {verb : Verb} {kind : ObjectKind} {answer : Server → Except ApiError α × Server}
    {reply : Except ApiError α} (h : s.serve verb kind answer = (reply, s')) :
    ∃ faults, (∃ status, reply = .error (.status status) ∧ s' = { s with faults := faults }) ∨
      answer { s with faults := faults } = (reply, s') := by
  unfold serve at h
  split at h
  · cases h
    exact ⟨_, .inl ⟨_, rfl, rfl⟩⟩
  · exact ⟨_, .inr h⟩

/-- A request is served if no failure is to come. -/
theorem serve_of_faults_nil {α : Type} (h : s.faults = []) (verb : Verb) (kind : ObjectKind)
    (answer : Server → Except ApiError α × Server) : s.serve verb kind answer = answer s := by
  obtain ⟨maps, nextVersion, objects, faults, races, racing⟩ := s
  dsimp only at h
  subst h
  rfl

/-- Then a look at a key finds what is held there. -/
theorem get_of_faults_nil (h : s.faults = []) (key : ObjectKey) : s.get key = (.ok (s.held key), s) := by
  rw [get, serve_of_faults_nil h]
  rfl

/-- Then a removal takes away what there is. -/
theorem delete_of_faults_nil (h : s.faults = []) (hkey : s.held key ≠ none) :
    s.delete key = (.ok (), { s with maps := s.maps.erase key }) := by
  rw [delete, serve_of_faults_nil h, if_pos ((contains_iff s key).2 hkey)]

/-- A creation fails and takes nothing away, or its key was free and holds the new config map, and nothing else has gone. -/
theorem create_cases {reply : Except ApiError Unit} (h : s.create key map = (reply, s')) :
    s.Grows s' ∧ ((∃ e, reply = .error e) ∨
      reply = .ok () ∧ s.held key = none ∧ ∃ version, s'.held key = some ⟨map, version⟩) := by
  obtain ⟨faults, ⟨status, rfl, rfl⟩ | h⟩ := serve_cases h
  · exact ⟨Grows.refl s, .inl ⟨_, rfl⟩⟩
  · have hgrows : s.Grows ({ s with faults := faults }.letRaceRun key.space) :=
      grows_letRaceRun { s with faults := faults } key.space
    dsimp only at h
    split at h
    · cases h
      exact ⟨hgrows, .inl ⟨_, rfl⟩⟩
    · rename_i hfree
      rw [contains_iff, Classical.not_not] at hfree
      cases h
      exact ⟨hgrows.trans (grows_put map hfree), .inr ⟨rfl, hgrows.free hfree, _, held_put_self _ _ _⟩⟩

/-- A listing takes nothing away. -/
theorem grows_list {space label value : String} {reply : Except ApiError (List (String × ConfigMap))}
    (h : s.list space label value = (reply, s')) : s.Grows s' := by
  obtain ⟨faults, ⟨status, rfl, rfl⟩ | h⟩ := serve_cases h
  · exact Grows.refl s
  · cases h
    split
    · exact grows_letRivalsRun { s with faults := faults } _ _ _
    · exact Grows.refl s

/-- A look at a key changes nothing but the failures to come. -/
theorem get_effect {reply : Except ApiError (Option StoredMap)} (h : s.get key = (reply, s')) :
    ∃ faults, s' = { s with faults := faults } := by
  unfold get at h
  generalize hserve : s.serve .get .configMaps (fun s => (.ok (s.maps.get? key), s)) = answer at h
  obtain ⟨reply', s''⟩ := answer
  obtain ⟨faults, ⟨status, rfl, rfl⟩ | hs⟩ := serve_cases hserve
  · cases h
    exact ⟨faults, rfl⟩
  · cases hs
    cases h
    exact ⟨faults, rfl⟩

/-- A look at a key changes nothing that is held, and what it finds is held there. -/
theorem get_cases {reply : Except ApiError (Option StoredMap)} (h : s.get key = (reply, s')) :
    s'.held = s.held ∧ ∀ found, reply = .ok (some found) → s.held key = some found := by
  unfold get at h
  generalize hserve : s.serve .get .configMaps (fun s => (.ok (s.maps.get? key), s)) = answer at h
  obtain ⟨reply', s''⟩ := answer
  obtain ⟨faults, ⟨status, rfl, rfl⟩ | hs⟩ := serve_cases hserve
  · cases h
    refine ⟨rfl, fun found hf => ?_⟩
    split at hf <;> cases hf
  · cases hs
    cases h
    exact ⟨rfl, fun found hf => Except.ok.inj hf⟩

/-- A replacement fails without an effect, or it replaces what is held in the version that was meant. -/
theorem replace_cases {version : Nat} {reply : Except ApiError Unit} (h : s.replace key version map = (reply, s')) :
    (∃ e, reply = .error e ∧ s'.held = s.held) ∨
      reply = .ok () ∧ (∃ old, s.held key = some old ∧ old.version = version) ∧
        ∃ v, ∀ k, s'.held k = if k = key then some ⟨map, v⟩ else s.held k := by
  obtain ⟨faults, ⟨status, rfl, rfl⟩ | h⟩ := serve_cases h
  · exact .inl ⟨_, rfl, rfl⟩
  · dsimp only at h
    split at h
    · cases h
      exact .inl ⟨_, rfl, rfl⟩
    · rename_i stored hs
      split at h
      · rename_i hv
        cases h
        exact .inr ⟨rfl, ⟨stored, hs, hv⟩, _, fun k => held_put _ _ _ _⟩
      · cases h
        exact .inl ⟨_, rfl, rfl⟩

/-- A patch fails without an effect, or it sets texts of what is held. -/
theorem patch_cases {texts : Labels} {reply : Except ApiError Unit} (h : s.patch key texts = (reply, s')) :
    (∃ e, reply = .error e ∧ s'.held = s.held) ∨
      reply = .ok () ∧ ∃ old v, s.held key = some old ∧
        ∀ k, s'.held k = if k = key then some ⟨old.map.withTexts texts, v⟩ else s.held k := by
  obtain ⟨faults, ⟨status, rfl, rfl⟩ | h⟩ := serve_cases h
  · exact .inl ⟨_, rfl, rfl⟩
  · dsimp only at h
    split at h
    · cases h
      exact .inl ⟨_, rfl, rfl⟩
    · rename_i stored hs
      cases h
      exact .inr ⟨rfl, stored, _, hs, fun k => held_put _ _ _ _⟩

/-- A removal fails without an effect, or it takes away what is held under its key and nothing else. -/
theorem delete_cases {reply : Except ApiError Unit} (h : s.delete key = (reply, s')) :
    (∃ e, reply = .error e ∧ s'.held = s.held) ∨
      reply = .ok () ∧ s.held key ≠ none ∧ ∀ k, s'.held k = if k = key then none else s.held k := by
  obtain ⟨faults, ⟨status, rfl, rfl⟩ | h⟩ := serve_cases h
  · exact .inl ⟨_, rfl, rfl⟩
  · dsimp only at h
    split at h
    · rename_i hc
      cases h
      exact .inr ⟨rfl, (contains_iff { s with faults := faults } key).1 hc,
        fun k => held_erase { s with faults := faults } key k⟩
    · cases h
      exact .inl ⟨_, rfl, rfl⟩

/-- Other objects are listed without an effect on the config maps. -/
theorem held_listObjects {kind : ObjectKind} {space : Option String} {activeOnly : Bool}
    {reply : Except ApiError (List Json)} (h : s.listObjects kind space activeOnly = (reply, s')) : s'.held = s.held := by
  obtain ⟨faults, ⟨status, rfl, rfl⟩ | h⟩ := serve_cases h
  · rfl
  · cases h
    rfl

end Requests

end Server

end TrainingJobs

import TrainingJobs.Proofs.Exchanges
import TrainingJobs.Proofs.Store

/-!
# What exchanges leave of the config maps

The statements of `Server` about one request, for a world that may not be reached at all, and what follows from them for a
list of exchanges: a key to which nothing was written keeps what is held there.
-/

namespace TrainingJobs

namespace World

/-- The config map that the server of a world holds under a key. -/
def held (w : World) (key : ObjectKey) : Option StoredMap := w.server.held key

/-- All that is held in a world is held in another too. -/
def Grows (w w' : World) : Prop := w.server.Grows w'.server

variable {w w' : World} {key : ObjectKey} {map : ConfigMap}

/-! ## One request -/

/-- A request finds nobody and has no effect, or the server answers it. -/
theorem contact_cases {α : Type} {request : Server → Except ApiError α × Server} {reply : Except ApiError α}
    (h : w.contact request = (reply, w')) :
    (reply = .error .unreachable ∧ w' = w) ∨ request w.server = (reply, w'.server) := by
  unfold contact at h
  split at h
  · cases h
    exact .inr rfl
  · cases h
    exact .inl ⟨rfl, rfl⟩

/-- A server that can be reached answers. -/
theorem contact_of_reachable {α : Type} (h : w.reachable = true) (request : Server → Except ApiError α × Server) :
    w.contact request = ((request w.server).1, { w with server := (request w.server).2 }) := by
  rw [contact, if_pos h]

/-- A creation fails and takes nothing away, or its key was free and holds the new config map, and nothing else has gone. -/
theorem createMap_cases {reply : Except ApiError Unit} (h : w.answer (.createMap key map) = (reply, w')) :
    w.Grows w' ∧ ((∃ e, reply = .error e) ∨
      reply = .ok () ∧ w.held key = none ∧ ∃ version, w'.held key = some ⟨map, version⟩) := by
  change w.contact (·.create key map) = (reply, w') at h
  obtain ⟨rfl, rfl⟩ | h := contact_cases h
  · exact ⟨Server.Grows.refl _, .inl ⟨_, rfl⟩⟩
  · exact Server.create_cases h

/-- A listing takes nothing away. -/
theorem grows_listMaps {space label value : String} {reply : Except ApiError (List (String × ConfigMap))}
    (h : w.answer (.listMaps space label value) = (reply, w')) : w.Grows w' := by
  change w.contact (·.list space label value) = (reply, w') at h
  obtain ⟨rfl, rfl⟩ | h := contact_cases h
  · exact Server.Grows.refl _
  · exact Server.grows_list h

/-- A look at a key changes nothing that is held, and what it finds is held there. -/
theorem getMap_cases {reply : Except ApiError (Option StoredMap)} (h : w.answer (.getMap key) = (reply, w')) :
    w'.held = w.held ∧ ∀ found, reply = .ok (some found) → w.held key = some found := by
  change w.contact (·.get key) = (reply, w') at h
  obtain ⟨rfl, rfl⟩ | h := contact_cases h
  · exact ⟨rfl, nofun⟩
  · exact Server.get_cases h

/-- A replacement fails without an effect, or it replaces what is held in the version that was meant. -/
theorem replaceMap_cases {version : Nat} {reply : Except ApiError Unit}
    (h : w.answer (.replaceMap key version map) = (reply, w')) :
    (∃ e, reply = .error e ∧ w'.held = w.held) ∨
      reply = .ok () ∧ (∃ old, w.held key = some old ∧ old.version = version) ∧
        ∃ v, ∀ k, w'.held k = if k = key then some ⟨map, v⟩ else w.held k := by
  change w.contact (·.replace key version map) = (reply, w') at h
  obtain ⟨rfl, rfl⟩ | h := contact_cases h
  · exact .inl ⟨_, rfl, rfl⟩
  · exact Server.replace_cases h

/-- A patch fails without an effect, or it sets texts of what is held. -/
theorem patchMap_cases {texts : Labels} {reply : Except ApiError Unit}
    (h : w.answer (.patchMap key texts) = (reply, w')) :
    (∃ e, reply = .error e ∧ w'.held = w.held) ∨
      reply = .ok () ∧ ∃ old v, w.held key = some old ∧
        ∀ k, w'.held k = if k = key then some ⟨old.map.withTexts texts, v⟩ else w.held k := by
  change w.contact (·.patch key texts) = (reply, w') at h
  obtain ⟨rfl, rfl⟩ | h := contact_cases h
  · exact .inl ⟨_, rfl, rfl⟩
  · exact Server.patch_cases h

/-- A removal fails without an effect, or it takes away what is held under its key and nothing else. -/
theorem deleteMap_cases {reply : Except ApiError Unit} (h : w.answer (.deleteMap key) = (reply, w')) :
    (∃ e, reply = .error e ∧ w'.held = w.held) ∨
      reply = .ok () ∧ w.held key ≠ none ∧ ∀ k, w'.held k = if k = key then none else w.held k := by
  change w.contact (·.delete key) = (reply, w') at h
  obtain ⟨rfl, rfl⟩ | h := contact_cases h
  · exact .inl ⟨_, rfl, rfl⟩
  · exact Server.delete_cases h

/-- A listing of other objects changes no config map. -/
theorem held_listObjects {kind : ObjectKind} {space : Option String} {activeOnly : Bool} {reply : Except ApiError (List Json)}
    (h : w.answer (.listObjects kind space activeOnly) = (reply, w')) : w'.held = w.held := by
  change w.contact (·.listObjects kind space activeOnly) = (reply, w') at h
  obtain ⟨-, rfl⟩ | hlisted := contact_cases h
  · rfl
  · exact Server.held_listObjects hlisted

/-- An exchange that does not write to a key leaves what is held there. -/
theorem held_answer {x : Exchange} (h : w.answer x.request = (x.reply, w')) (hx : ¬x.Writes key) {m : StoredMap}
    (hm : w.held key = some m) : w'.held key = some m := by
  obtain ⟨r, reply⟩ := x
  cases r with
  | createMap k map => exact (createMap_cases h).1 key m hm
  | listMaps space label value => exact grows_listMaps h key m hm
  | getMap k => rw [(getMap_cases h).1, hm]
  | replaceMap k version map =>
    obtain ⟨e, rfl, he⟩ | ⟨rfl, -, v, hv⟩ := replaceMap_cases h
    · rw [he, hm]
    · rw [hv, if_neg fun hk => hx hk.symm, hm]
  | patchMap k texts =>
    obtain ⟨e, rfl, he⟩ | ⟨rfl, old, v, -, hv⟩ := patchMap_cases h
    · rw [he, hm]
    · rw [hv, if_neg fun hk => hx hk.symm, hm]
  | deleteMap k =>
    obtain ⟨e, rfl, he⟩ | ⟨rfl, -, hv⟩ := deleteMap_cases h
    · rw [he, hm]
    · rw [hv, if_neg fun hk => hx hk.symm, hm]
  | listObjects kind space activeOnly => rw [held_listObjects h, hm]
  | install call | query address expression | log level text | print text | now =>
    cases h
    exact hm

/-- A key is freed by a removal only. -/
theorem eq_deleteMap_of_freed {x : Exchange} (h : w.answer x.request = (x.reply, w')) (hheld : w.held key ≠ none)
    (hfree : w'.held key = none) : x = ⟨.deleteMap key, .ok ()⟩ := by
  obtain ⟨m, hm⟩ := Option.ne_none_iff_exists'.1 hheld
  have hwrites : x.Writes key := by
    refine Classical.byContradiction fun hx => ?_
    rw [held_answer h hx hm] at hfree
    cases hfree
  obtain ⟨r, reply⟩ := x
  cases r with
  | createMap k map =>
    have hstill : w'.held key = some m := (createMap_cases h).1 key m hm
    rw [hstill] at hfree
    cases hfree
  | replaceMap k version map =>
    obtain ⟨e, rfl, -⟩ | ⟨rfl, -, v, hv⟩ := replaceMap_cases h
    · cases hwrites
    · cases hwrites
      rw [hv, if_pos rfl] at hfree
      cases hfree
  | patchMap k texts =>
    obtain ⟨e, rfl, -⟩ | ⟨rfl, old, v, -, hv⟩ := patchMap_cases h
    · cases hwrites
    · cases hwrites
      rw [hv, if_pos rfl] at hfree
      cases hfree
  | deleteMap k =>
    cases reply with
    | error e => cases hwrites
    | ok u =>
      cases hwrites
      rfl
  | _ => cases hwrites

/-! ## Lists of exchanges -/

/-- A key to which nothing is written keeps what is held there. -/
theorem Path.held {xs : List Exchange} (h : w.Path xs w') (hx : ∀ x ∈ xs, ¬x.Writes key) {m : StoredMap}
    (hm : w.held key = some m) : w'.held key = some m := by
  induction h with
  | nil w => exact hm
  | cons ha _ ih =>
    refine ih (fun x hmem => hx x (List.mem_cons_of_mem _ hmem)) ?_
    exact held_answer ha (hx _ List.mem_cons_self) hm

/-- A key that is free behind exchanges that do not write to it was free before them. -/
theorem Path.free {xs : List Exchange} (h : w.Path xs w') (hx : ∀ x ∈ xs, ¬x.Writes key) (hf : w'.held key = none) :
    w.held key = none := by
  cases hm : w.held key with
  | none => rfl
  | some m =>
    rw [h.held hx hm] at hf
    cases hf

/-! ## Steps of a way -/

/-- Each step of a world by exchanges is in a relation. -/
def Steps (R : World → World → Prop) : World → List Exchange → Prop
  | _, [] => True
  | w, x :: xs => R w (w.answer x.request).2 ∧ Steps R (w.answer x.request).2 xs

section Steps

variable {R : World → World → Prop} {xs ys : List Exchange}

theorem steps_cons_iff {w₁ : World} {x : Exchange} (h : w.answer x.request = (x.reply, w₁)) :
    Steps R w (x :: xs) ↔ R w w₁ ∧ Steps R w₁ xs := by
  rw [Steps, h]

theorem steps_append_iff {w₁ : World} (h : w.Path xs w₁) : Steps R w (xs ++ ys) ↔ Steps R w xs ∧ Steps R w₁ ys := by
  induction h with
  | nil w => exact (and_iff_right trivial).symm
  | cons ha _ ih => rw [List.cons_append, steps_cons_iff ha, steps_cons_iff ha, ih, and_assoc]

/-- Each step is in a relation when each exchange makes one that is. -/
theorem Path.steps (h : w.Path xs w')
    (hx : ∀ x ∈ xs, ∀ v v' : World, v.answer x.request = (x.reply, v') → R v v') : Steps R w xs := by
  induction h with
  | nil w => exact trivial
  | @cons w w₁ w' x xs ha _ ih =>
    exact (steps_cons_iff ha).2 ⟨hx x List.mem_cons_self w w₁ ha, ih fun y hy => hx y (List.mem_cons_of_mem x hy)⟩

/-- The ends of a way are in a relation that its steps are in, if that is an order. -/
theorem Steps.ends (hrefl : ∀ v, R v v) (htrans : ∀ {u v v'}, R u v → R v v' → R u v') (hs : Steps R w xs)
    (h : w.Path xs w') : R w w' := by
  induction h with
  | nil w => exact hrefl w
  | cons ha _ ih =>
    obtain ⟨hstep, hrest⟩ := (steps_cons_iff ha).1 hs
    exact htrans hstep (ih hrest)

end Steps

end World

end TrainingJobs

import TrainingJobs.Proofs.Submitting

/-!
# What submissions leave of the config maps

The exchanges of the parts of a submission, one by one: what they write to, which calls of the installer are among them, and what
the config maps hold behind them.
-/

namespace TrainingJobs

variable {xs : List Exchange} {space name : String}

/-! ## The counter -/

namespace JobIndex

/-- A number is drawn by looks at the counter, its creation and its replacement. -/
theorem Counted.cases {x : Exchange} (h : Counted space xs) (hx : x ∈ xs) :
    (∃ reply, x = ⟨.getMap (key space), reply⟩) ∨ (∃ reply, x = ⟨.createMap (key space) (withValue {} 1), reply⟩) ∨
      ∃ version map reply, x = ⟨.replaceMap (key space) version map, reply⟩ := by
  induction h with
  | nil => cases hx
  | attempt ha _ ih =>
    rcases List.mem_append.1 hx with hx | hx
    · cases ha with
      | unread e => exact .inl ⟨_, List.mem_singleton.1 hx⟩
      | created reply =>
        simp only [List.mem_cons, List.not_mem_nil, or_false] at hx
        rcases hx with rfl | rfl
        · exact .inl ⟨_, rfl⟩
        · exact .inr (.inl ⟨_, rfl⟩)
      | stuck found hnone => exact .inl ⟨_, List.mem_singleton.1 hx⟩
      | moved found reply hnext =>
        simp only [List.mem_cons, List.not_mem_nil, or_false] at hx
        rcases hx with rfl | rfl
        · exact .inl ⟨_, rfl⟩
        · exact .inr (.inr ⟨_, _, _, rfl⟩)
    · exact ih hx

/-- The counter is all that is written to. -/
theorem Counted.writes {x : Exchange} {k : ObjectKey} (h : Counted space xs) (hx : x ∈ xs) (hw : x.Writes k) :
    k = key space := by
  obtain ⟨reply, rfl⟩ | ⟨reply, rfl⟩ | ⟨version, map, reply, rfl⟩ := h.cases hx
  · cases hw
  · cases reply with
    | ok u => exact hw.symm
    | error e => cases hw
  · cases reply with
    | ok u => exact hw.symm
    | error e => cases hw

/-- The installer is not called. -/
theorem Counted.filterMap_call? (h : Counted space xs) : xs.filterMap Exchange.call? = [] := by
  refine List.filterMap_eq_nil_iff.2 fun x hx => ?_
  obtain ⟨reply, rfl⟩ | ⟨reply, rfl⟩ | ⟨version, map, reply, rfl⟩ := h.cases hx <;> rfl

/-- No record is stored. -/
theorem Counted.stored_not_mem (h : Counted space xs) (r : Record) : r.stored ∉ xs := by
  intro hx
  obtain ⟨reply, heq⟩ | ⟨reply, heq⟩ | ⟨version, map, reply, heq⟩ := h.cases hx
  · cases congrArg Exchange.request heq
  · -- A record has labels, and the counter has none.
    injection congrArg Exchange.request heq with hkey hmap
    cases congrArg ConfigMap.labels hmap
  · cases congrArg Exchange.request heq

/-- Setting the counter leaves the other texts. -/
theorem text?_withValue {text : String} (m : ConfigMap) (n : Nat) (h : text ≠ textName) :
    (withValue m n).text? text = m.text? text := by
  have hother : compare text textName ≠ .eq := fun heq => h (Std.LawfulEqOrd.eq_of_compare heq)
  rw [withValue, ConfigMap.text?_withTexts, SortedTable.ofList, SortedTable.insertAll, List.foldl_cons, List.foldl_nil,
    SortedTable.get?_insert, if_neg hother, SortedTable.get?_empty, Option.none_or]

/-- Two config maps have the same labels and, but for the counter, the same texts. -/
structure SameButCount (m m' : ConfigMap) : Prop where
  labels : m'.labels = m.labels
  texts : ∀ text, text ≠ textName → m'.text? text = m.text? text

theorem SameButCount.refl (m : ConfigMap) : SameButCount m m := ⟨rfl, fun _ _ => rfl⟩

theorem sameButCount_withValue (m : ConfigMap) (n : Nat) : SameButCount m (withValue m n) :=
  ⟨rfl, fun _ htext => text?_withValue m n htext⟩

/-- What is held under a key stays, and if that is the counter all of it stays but its value. -/
def Keeps (counter key : ObjectKey) (w w' : World) : Prop :=
  ∀ m, w.held key = some m → ∃ m', w'.held key = some m' ∧ (key ≠ counter → m' = m) ∧ SameButCount m.map m'.map

section Keeps

variable {counter k : ObjectKey} {w w' w'' : World}

theorem Keeps.of_held (h : ∀ m, w.held k = some m → w'.held k = some m) : Keeps counter k w w' := by
  intro m hm
  exact ⟨m, h m hm, fun _ => rfl, .refl m.map⟩

theorem Keeps.refl (w : World) : Keeps counter k w w := .of_held fun _ hm => hm

theorem Keeps.trans (h : Keeps counter k w w') (h' : Keeps counter k w' w'') : Keeps counter k w w'' := by
  intro m hm
  obtain ⟨m', hm', hsame', hcount'⟩ := h m hm
  obtain ⟨m'', hm'', hsame'', hcount''⟩ := h' m' hm'
  refine ⟨m'', hm'', fun hk => (hsame'' hk).trans (hsame' hk), ?_, fun text htext => ?_⟩
  · exact hcount''.labels.trans hcount'.labels
  · exact (hcount''.texts text htext).trans (hcount'.texts text htext)

/-- At each step of an attempt at the counter all config maps stay, but for the value of the counter. -/
theorem Attempted.steps (h : Attempted space xs) (hp : w.Path xs w') : World.Steps (Keeps (key space) k) w xs := by
  cases h with
  | unread e =>
    obtain ⟨w₁, hget, -⟩ := World.path_cons_iff.1 hp
    have hread : Keeps (key space) k w w₁ := .of_held fun m hm => by rw [(World.getMap_cases hget).1, hm]
    exact (World.steps_cons_iff hget).2 ⟨hread, trivial⟩
  | created reply =>
    obtain ⟨w₁, hget, hrest⟩ := World.path_cons_iff.1 hp
    obtain ⟨w₂, hcreate, -⟩ := World.path_cons_iff.1 hrest
    have hread : Keeps (key space) k w w₁ := .of_held fun m hm => by rw [(World.getMap_cases hget).1, hm]
    have hcreated : Keeps (key space) k w₁ w₂ := .of_held fun m hm => (World.createMap_cases hcreate).1 k m hm
    exact (World.steps_cons_iff hget).2 ⟨hread, (World.steps_cons_iff hcreate).2 ⟨hcreated, trivial⟩⟩
  | stuck found hnone =>
    obtain ⟨w₁, hget, -⟩ := World.path_cons_iff.1 hp
    have hread : Keeps (key space) k w w₁ := .of_held fun m hm => by rw [(World.getMap_cases hget).1, hm]
    exact (World.steps_cons_iff hget).2 ⟨hread, trivial⟩
  | moved found reply hnext =>
    obtain ⟨w₁, hget, hrest⟩ := World.path_cons_iff.1 hp
    obtain ⟨w₂, hreplace, -⟩ := World.path_cons_iff.1 hrest
    obtain ⟨hsame, hfound⟩ := World.getMap_cases hget
    have hread : Keeps (key space) k w w₁ := .of_held fun m hm => by rw [hsame, hm]
    have hmoved : Keeps (key space) k w₁ w₂ := by
      obtain ⟨e, -, he⟩ | ⟨-, -, v, hv⟩ := World.replaceMap_cases hreplace
      · exact .of_held fun m hm => by rw [he, hm]
      · intro m hm
        rw [hv]
        by_cases hk : k = key space
        · -- What is written has all the labels and texts of what was read, and that is what is there.
          have heq : found = m := by
            rw [hk, hsame, hfound found rfl] at hm
            exact Option.some.inj hm
          rw [if_pos hk, ← heq]
          exact ⟨_, rfl, fun hne => absurd hk hne, sameButCount_withValue _ _⟩
        · rw [if_neg hk]
          exact ⟨m, hm, fun _ => rfl, .refl m.map⟩
    exact (World.steps_cons_iff hget).2 ⟨hread, (World.steps_cons_iff hreplace).2 ⟨hmoved, trivial⟩⟩

/-- So they do at each step in which a number is drawn. -/
theorem Counted.steps (h : Counted space xs) (hp : w.Path xs w') : World.Steps (Keeps (key space) k) w xs := by
  induction h generalizing w with
  | nil => exact trivial
  | attempt ha _ ih =>
    obtain ⟨w₁, hattempt, hrest⟩ := World.path_append_iff.1 hp
    exact (World.steps_append_iff hattempt).2 ⟨ha.steps hattempt, ih hrest⟩

/-- Drawing a number takes no config map away, and changes no text of one but that of the counter. -/
theorem Counted.path {m : StoredMap} (h : Counted space xs) (hp : w.Path xs w') (hm : w.held k = some m) :
    ∃ m', w'.held k = some m' ∧ ∀ text, text ≠ textName → m'.map.text? text = m.map.text? text := by
  obtain ⟨m', hm', -, hcount⟩ := (h.steps hp).ends Keeps.refl Keeps.trans hp m hm
  exact ⟨m', hm', hcount.texts⟩

end Keeps

end JobIndex

namespace Lifecycle

/-! ## Releases -/

/-- A release takes away the record, unless the log says otherwise, and nothing else. -/
theorem Released.path {w w' : World} (h : Released space name xs) (hp : w.Path xs w') :
    (xs = [⟨.deleteMap ⟨space, name⟩, .ok ()⟩] ∧ ∀ k, w'.held k = if k = ⟨space, name⟩ then none else w.held k) ∨
      ∃ e, xs = [⟨.deleteMap ⟨space, name⟩, .error e⟩, ⟨.log .warn (unreleasedNote name e), ()⟩] ∧ w'.held = w.held := by
  cases h with
  | gone =>
    obtain ⟨w₁, hdelete, hend⟩ := World.path_cons_iff.1 hp
    rw [World.path_nil_iff.1 hend]
    obtain ⟨e, he, -⟩ | ⟨-, -, hheld⟩ := World.deleteMap_cases hdelete
    · cases he
    · exact .inl ⟨rfl, hheld⟩
  | kept e =>
    obtain ⟨w₁, hdelete, hrest⟩ := World.path_cons_iff.1 hp
    obtain ⟨w₂, hlog, hend⟩ := World.path_cons_iff.1 hrest
    rw [World.path_nil_iff.1 hend]
    obtain ⟨_, -, hheld⟩ | ⟨hok, -⟩ := World.deleteMap_cases hdelete
    · cases hlog
      exact .inr ⟨e, rfl, hheld⟩
    · cases hok

/-- A release asks for the removal of the record, and may note something. -/
theorem Released.cases {x : Exchange} (h : Released space name xs) (hx : x ∈ xs) :
    (∃ reply, x = ⟨.deleteMap ⟨space, name⟩, reply⟩) ∨ ∃ text, x = ⟨.log .warn text, ()⟩ := by
  cases h with
  | gone => exact .inl ⟨_, List.mem_singleton.1 hx⟩
  | kept e =>
    simp only [List.mem_cons, List.not_mem_nil, or_false] at hx
    rcases hx with rfl | rfl
    · exact .inl ⟨_, rfl⟩
    · exact .inr ⟨_, rfl⟩

/-- A release that took a record away took that of its name. -/
theorem Released.key_eq {key : ObjectKey} (h : Released space name xs) (hx : ⟨.deleteMap key, .ok ()⟩ ∈ xs) :
    key = ⟨space, name⟩ ∧ xs = [⟨.deleteMap ⟨space, name⟩, .ok ()⟩] := by
  cases h with
  | gone =>
    cases List.mem_singleton.1 hx
    exact ⟨rfl, rfl⟩
  | kept e =>
    simp only [List.mem_cons, List.not_mem_nil, or_false] at hx
    rcases hx with hx | hx
    · cases hx
    · cases hx

/-- The installer is not called for a release. -/
theorem Released.filterMap_call? (h : Released space name xs) : xs.filterMap Exchange.call? = [] := by
  refine List.filterMap_eq_nil_iff.2 fun x hx => ?_
  obtain ⟨reply, rfl⟩ | ⟨text, rfl⟩ := h.cases hx <;> rfl

theorem Noted.cases {x : Exchange} (h : Noted xs) (hx : x ∈ xs) : ∃ text, x = ⟨.log .warn text, ()⟩ := by
  rcases h with rfl | ⟨text, rfl⟩
  · cases hx
  · exact ⟨text, List.mem_singleton.1 hx⟩

/-- The installer is not called for a note. -/
theorem Noted.filterMap_call? (h : Noted xs) : xs.filterMap Exchange.call? = [] := by
  rcases h with rfl | ⟨text, rfl⟩ <;> rfl

/-! ## Launches -/

section Launched

variable {chart values : String} {identity : JobIdentity} {result : Except LifecycleError Submission}

/-- A launch calls the installer, sets texts of the record, asks for its removal, and may note something. -/
theorem Launched.cases {x : Exchange} (h : Launched chart identity space values xs result) (hx : x ∈ xs) :
    (∃ call outcome, x = ⟨.install call, outcome⟩) ∨
      (∃ texts reply, x = ⟨.patchMap ⟨space, identity.resolved⟩ texts, reply⟩) ∨
      (∃ reply, x = ⟨.deleteMap ⟨space, identity.resolved⟩, reply⟩) ∨ ∃ text, x = ⟨.log .warn text, ()⟩ := by
  cases h with
  | unrendered hreleased =>
    rcases List.mem_cons.1 hx with rfl | hx
    · exact .inl ⟨_, _, rfl⟩
    · exact .inr (.inr (hreleased.cases hx))
  | unstored hreleased =>
    simp only [List.mem_cons] at hx
    rcases hx with rfl | rfl | hx
    · exact .inl ⟨_, _, rfl⟩
    · exact .inr (.inl ⟨_, _, rfl⟩)
    · exact .inr (.inr (hreleased.cases hx))
  | unapplied hnotes hreleased =>
    simp only [List.mem_cons, List.mem_append] at hx
    rcases hx with rfl | rfl | rfl | rfl | hx | hx
    · exact .inl ⟨_, _, rfl⟩
    · exact .inr (.inl ⟨_, _, rfl⟩)
    · exact .inl ⟨_, _, rfl⟩
    · exact .inl ⟨_, _, rfl⟩
    · exact .inr (.inr (.inr (hnotes.cases hx)))
    · exact .inr (.inr (hreleased.cases hx))
  | started =>
    simp only [List.mem_cons, List.not_mem_nil, or_false] at hx
    rcases hx with rfl | rfl | rfl
    · exact .inl ⟨_, _, rfl⟩
    · exact .inr (.inl ⟨_, _, rfl⟩)
    · exact .inl ⟨_, _, rfl⟩

/-- The record of the name is all that a launch writes to. -/
theorem Launched.writes {x : Exchange} {k : ObjectKey} (h : Launched chart identity space values xs result) (hx : x ∈ xs)
    (hw : x.Writes k) : k = ⟨space, identity.resolved⟩ := by
  obtain ⟨call, outcome, rfl⟩ | ⟨texts, reply, rfl⟩ | ⟨reply, rfl⟩ | ⟨text, rfl⟩ := h.cases hx
  · cases hw
  · cases reply with
    | ok u => exact Eq.symm hw
    | error e => cases hw
  · cases reply with
    | ok u => exact Eq.symm hw
    | error e => cases hw
  · cases hw

/-- A launch stores no record. -/
theorem Launched.stored_not_mem (h : Launched chart identity space values xs result) (r : Record) : r.stored ∉ xs := by
  intro hx
  obtain ⟨call, outcome, heq⟩ | ⟨texts, reply, heq⟩ | ⟨reply, heq⟩ | ⟨text, heq⟩ := h.cases hx <;>
    cases congrArg Exchange.request heq

/-- A launch looks at no config map. -/
theorem Launched.getMap_not_mem (h : Launched chart identity space values xs result) (key : ObjectKey)
    (reply : Except ApiError (Option StoredMap)) : ⟨.getMap key, reply⟩ ∉ xs := by
  intro hx
  obtain ⟨call, outcome, heq⟩ | ⟨texts, reply, heq⟩ | ⟨reply, heq⟩ | ⟨text, heq⟩ := h.cases hx <;>
    cases congrArg Exchange.request heq

/-- The calls of a launch that could not apply its manifest. -/
theorem filterMap_call?_unapplied {manifest : String} {e : InstallError} {outcome : Except InstallError String}
    {notes zs : List Exchange} (hnotes : Noted notes) (hreleased : Released space identity.resolved zs) :
    (⟨.install (.render identity.resolved space values), .ok manifest⟩ ::
        ⟨.patchMap ⟨space, identity.resolved⟩ (texts chart values manifest), .ok ()⟩ ::
        applied space manifest (.error e) :: uninstalled space manifest outcome :: (notes ++ zs)).filterMap Exchange.call? =
      [(.render identity.resolved space values, .ok manifest), (.apply space manifest, .error e),
        (.uninstall space manifest, outcome)] := by
  simp only [List.filterMap_cons, List.filterMap_append, Exchange.call?, applied, uninstalled, hnotes.filterMap_call?,
    hreleased.filterMap_call?, List.append_nil]

end Launched

/-! ## What follows a registration -/

section Registered

variable {before counting launching : List Exchange} {r : Record} {system : String} {w w' : World} {x : Exchange}

/-- A record that a registration has stored lies where nothing was, and nothing else has gone. -/
theorem path_registered {later : List Exchange} (hvain : ∀ x ∈ before, Registration.InVain x)
    (hp : w.Path (before ++ r.stored :: later) w') :
    w.held r.key = none ∧ ∃ w₁ : World, w.Grows w₁ ∧ w₁.held r.key ≠ none ∧ w₁.Path later w' := by
  have hsilent : ∀ key, ∀ x ∈ before, ¬x.Writes key := fun key x hx => (hvain x hx).not_writes key
  obtain ⟨w₀, hbefore, hrest⟩ := World.path_append_iff.1 hp
  obtain ⟨w₁, hstored, hlater⟩ := World.path_cons_iff.1 hrest
  obtain ⟨hgrows, ⟨e, he⟩ | ⟨-, hfree, version, hheld⟩⟩ := World.createMap_cases hstored
  · cases he
  · refine ⟨hbefore.free (hsilent r.key) hfree, w₁, fun key m hm => ?_, ?_, hlater⟩
    · exact hgrows key m (hbefore.held (hsilent key) hm)
    · exact fun hnone => Option.some_ne_none _ (hheld.symm.trans hnone)

/-- The calls of a submission are those of its launch. -/
theorem filterMap_call?_registered (hvain : ∀ x ∈ before, Registration.InVain x)
    (hcounted : JobIndex.Counted system counting) :
    (before ++ r.stored :: (counting ++ launching)).filterMap Exchange.call? = launching.filterMap Exchange.call? := by
  have hstoring : r.stored.call? = none := rfl
  rw [List.filterMap_append, List.filterMap_cons_none hstoring, List.filterMap_append,
    Registration.filterMap_call?_of_inVain hvain, hcounted.filterMap_call?, List.nil_append, List.nil_append]

/-- A submission writes to the counter, to the record of its name, and to what its launch writes to. -/
theorem writes_registered {key : ObjectKey} (hvain : ∀ x ∈ before, Registration.InVain x)
    (hcounted : JobIndex.Counted system counting) (hlaunching : ∀ x ∈ launching, x.Writes key → key = r.key)
    (hx : x ∈ before ++ r.stored :: (counting ++ launching)) (hw : x.Writes key) :
    key = r.key ∨ key = JobIndex.key system := by
  simp only [List.mem_append, List.mem_cons] at hx
  rcases hx with hx | rfl | hx | hx
  · exact absurd hw ((hvain x hx).not_writes key)
  · exact .inl (Eq.symm hw)
  · exact .inr (hcounted.writes hx hw)
  · exact .inl (hlaunching x hx hw)

/-- A submission stores no record but that of its name. -/
theorem key_eq_of_stored_mem {r' : Record} (hvain : ∀ x ∈ before, Registration.InVain x)
    (hcounted : JobIndex.Counted system counting) (hlaunching : r'.stored ∉ launching)
    (hx : r'.stored ∈ before ++ r.stored :: (counting ++ launching)) : r'.key = r.key := by
  simp only [List.mem_append, List.mem_cons] at hx
  rcases hx with hx | hx | hx | hx
  · exact absurd hx (Registration.stored_not_mem_of_inVain hvain r')
  · injection congrArg Exchange.request hx
  · exact absurd hx (hcounted.stored_not_mem r')
  · exact absurd hx hlaunching

/-- A submission reads the counter where it draws a number, and nowhere else. -/
theorem readGreatest_registered (hvain : ∀ x ∈ before, Registration.InVain x)
    (hlaunching : ∀ key reply, ⟨.getMap key, reply⟩ ∉ launching) :
    JobIndex.ReadGreatest system (before ++ r.stored :: (counting ++ launching)) ↔ JobIndex.ReadGreatest system counting := by
  constructor
  · rintro ⟨found, hnone, hx⟩
    simp only [List.mem_append, List.mem_cons] at hx
    rcases hx with hx | hx | hx | hx
    · exact (hvain _ hx).elim
    · cases congrArg Exchange.request hx
    · exact ⟨found, hnone, hx⟩
    · exact absurd hx (hlaunching _ _)
  · rintro ⟨found, hnone, hx⟩
    exact ⟨found, hnone, by simp [hx]⟩

/-- Removals of a submission are asked for by its launch. -/
theorem deleteMap_mem_launching {key : ObjectKey} {reply : Except ApiError Unit}
    (hvain : ∀ x ∈ before, Registration.InVain x) (hcounted : JobIndex.Counted system counting)
    (hx : ⟨.deleteMap key, reply⟩ ∈ before ++ r.stored :: (counting ++ launching)) : ⟨.deleteMap key, reply⟩ ∈ launching := by
  simp only [List.mem_append, List.mem_cons] at hx
  rcases hx with hx | hx | hx | hx
  · exact (hvain _ hx).elim
  · cases congrArg Exchange.request hx
  · obtain ⟨_, heq⟩ | ⟨_, heq⟩ | ⟨_, _, _, heq⟩ := hcounted.cases hx <;> cases congrArg Exchange.request heq
  · exact hx

end Registered

/-! ## An installer that fails -/

/-- A request for a job. -/
def plainRequest : SubmitRequest := { name := .job, image := "ubuntu", project := "team-a" }

/-- A world whose installer can only render. -/
def renderingOnly : World :=
  { installer := fun _ call =>
      match call with
      | .render _ _ _ => .ok "kind: Job"
      | .apply _ _ => .error (.valuesFile "disk full")
      | .uninstall _ _ => .error (.valuesFile "disk full") }

end Lifecycle

end TrainingJobs

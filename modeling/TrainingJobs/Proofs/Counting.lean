import Mathlib.Data.List.Chain
import Mathlib.Data.List.Nodup
import TrainingJobs.Proofs.Crowd
import TrainingJobs.Proofs.Submitting

/-!
# Numbers of the counter

Any number of clients draw numbers of the counter of jobs at the same time, and any of their requests can fail. What a client
has read is replaced only in the version in which it was read, and a version is given once (`Server.Recalls`): so a number is
drawn by the client whose write comes next to the one it has read, and by nobody else (`job_numbers_drawn_once`).
-/

namespace TrainingJobs

/-! ## Versions -/

namespace Server

/-- From one server to another nothing was written under a key. What was written elsewhere has got versions of its own, and
nobody new waits to go first. -/
structure Untouched (key : ObjectKey) (s s' : Server) : Prop where
  held_eq : s'.held key = s.held key
  versions : s.nextVersion ≤ s'.nextVersion
  races : ∀ race ∈ s'.races, race ∈ s.races

/-- From one server to another a config map was put under a key, in a version that had not been given before. -/
structure Renewed (key : ObjectKey) (map : ConfigMap) (s s' : Server) : Prop where
  held_eq : ∃ version, s'.held key = some ⟨map, version⟩ ∧ s.nextVersion ≤ version ∧ version < s'.nextVersion
  races : ∀ race ∈ s'.races, race ∈ s.races

/-- A config map was read under a key at some time: if it is not there any more, its version is not there any more either. -/
def Recalls (s : Server) (key : ObjectKey) (found : StoredMap) : Prop :=
  found.version < s.nextVersion ∧ ∀ m, s.held key = some m → m.version = found.version → m = found

section Versions

variable {s s' s'' : Server} {key : ObjectKey} {map : ConfigMap}

theorem Untouched.refl (key : ObjectKey) (s : Server) : Untouched key s s := ⟨rfl, Nat.le_refl _, fun _ h => h⟩

theorem Untouched.trans (h : Untouched key s s') (h' : Untouched key s' s'') : Untouched key s s'' where
  held_eq := h'.held_eq.trans h.held_eq
  versions := Nat.le_trans h.versions h'.versions
  races race hrace := h.races race (h'.races race hrace)

/-- A write under another key. -/
theorem untouched_put {k : ObjectKey} (hk : key ≠ k) : Untouched key s (s.put k map) where
  held_eq := held_put_of_ne s map hk
  versions := Nat.le_succ _
  races _ h := h

/-- A write under another key that may be taken. -/
theorem untouched_putNew {k : ObjectKey} (hk : key ≠ k) : Untouched key s (s.putNew k map) := by
  unfold putNew
  split
  · exact Untouched.refl key s
  · exact untouched_put hk

/-- A write under the key itself. -/
theorem renewed_put : Renewed key map s (s.put key map) where
  held_eq := ⟨s.nextVersion, held_put_self s key map, Nat.le_refl _, Nat.lt_succ_self _⟩
  races _ h := h

theorem Untouched.trans_renewed (h : Untouched key s s') (h' : Renewed key map s' s'') : Renewed key map s s'' where
  held_eq := by
    obtain ⟨version, hheld, hle, hlt⟩ := h'.held_eq
    exact ⟨version, hheld, Nat.le_trans h.versions hle, hlt⟩
  races race hrace := h.races race (h'.races race hrace)

/-- What was read stays what was read as long as nothing is written. -/
theorem Recalls.untouched {found : StoredMap} (h : s.Recalls key found) (hs : Untouched key s s') : s'.Recalls key found := by
  obtain ⟨hversion, hsame⟩ := h
  refine ⟨Nat.lt_of_lt_of_le hversion hs.versions, fun m hm => ?_⟩
  rw [hs.held_eq] at hm
  exact hsame m hm

/-- What was read before a write is not what is there after it. -/
theorem Recalls.renewed {found : StoredMap} (h : s.Recalls key found) (hs : Renewed key map s s') : s'.Recalls key found := by
  obtain ⟨hversion, -⟩ := h
  obtain ⟨version, hheld, hle, hlt⟩ := hs.held_eq
  refine ⟨by omega, fun m hm heq => ?_⟩
  rw [hheld] at hm
  cases hm
  dsimp only at heq
  omega

/-- A deed about another key. -/
theorem untouched_undergo {deed : Deed} (hd : deed.key ≠ key) : Untouched key s (s.undergo deed) := by
  have hne : key ≠ deed.key := fun heq => hd heq.symm
  cases deed with
  | create k map => exact untouched_putNew hne
  | change k map =>
    simp only [undergo]
    split
    · exact untouched_put hne
    · exact Untouched.refl key s
  | remove k =>
    have hk : key ≠ k := hne
    refine ⟨?_, Nat.le_refl _, fun _ h => h⟩
    rw [undergo, held_erase, if_neg hk]

/-- The next of the other clients takes a name that is not that of the key. -/
theorem untouched_letRaceRun {space : String} (hraces : ∀ race ∈ s.races, race.1 ≠ key.name) :
    Untouched key s (s.letRaceRun space) := by
  unfold letRaceRun
  split
  · exact Untouched.refl key s
  · rename_i name map rest hrest
    have hname : name ≠ key.name := hraces (name, map) (by rw [hrest]; exact List.mem_cons_self)
    have hne : key ≠ ⟨space, name⟩ := fun heq => hname (congrArg ObjectKey.name heq).symm
    have hwithout : Untouched key s { s with races := rest } :=
      ⟨rfl, Nat.le_refl _, fun race hrace => by rw [hrest]; exact List.mem_cons_of_mem _ hrace⟩
    exact hwithout.trans (untouched_putNew hne)

/-- A look changes nothing. -/
theorem untouched_get {k : ObjectKey} {reply : Except ApiError (Option StoredMap)} (h : s.get k = (reply, s')) :
    Untouched key s s' := by
  obtain ⟨faults, rfl⟩ := get_effect h
  exact ⟨rfl, Nat.le_refl _, fun _ h => h⟩

/-- A creation under a key that nobody else takes fails and changes nothing there, or finds it free and puts a new version. -/
theorem create_renewed (hraces : ∀ race ∈ s.races, race.1 ≠ key.name) {reply : Except ApiError Unit}
    (h : s.create key map = (reply, s')) :
    (∃ e, reply = .error e ∧ Untouched key s s') ∨ reply = .ok () ∧ s.held key = none ∧ Renewed key map s s' := by
  obtain ⟨faults, ⟨status, rfl, rfl⟩ | h⟩ := serve_cases h
  · exact .inl ⟨_, rfl, rfl, Nat.le_refl _, fun _ h => h⟩
  · have hfaults : Untouched key s { s with faults := faults } := ⟨rfl, Nat.le_refl _, fun _ h => h⟩
    have hraced : Untouched key { s with faults := faults } ({ s with faults := faults }.letRaceRun key.space) :=
      untouched_letRaceRun hraces
    have hrace := hfaults.trans hraced
    dsimp only at h
    split at h
    · cases h
      exact .inl ⟨_, rfl, hrace⟩
    · rename_i hfree
      rw [contains_iff, Classical.not_not, hrace.held_eq] at hfree
      cases h
      exact .inr ⟨rfl, hfree, hrace.trans_renewed renewed_put⟩

/-- A replacement fails and changes nothing, or finds the version that was meant and puts a new one. -/
theorem replace_renewed {version : Nat} {reply : Except ApiError Unit} (h : s.replace key version map = (reply, s')) :
    (∃ e, reply = .error e ∧ Untouched key s s') ∨
      reply = .ok () ∧ (∃ old, s.held key = some old ∧ old.version = version) ∧ Renewed key map s s' := by
  obtain ⟨faults, ⟨status, rfl, rfl⟩ | h⟩ := serve_cases h
  · exact .inl ⟨_, rfl, rfl, Nat.le_refl _, fun _ h => h⟩
  · have hfaults : Untouched key s { s with faults := faults } := ⟨rfl, Nat.le_refl _, fun _ h => h⟩
    dsimp only at h
    split at h
    · cases h
      exact .inl ⟨_, rfl, hfaults⟩
    · rename_i stored hs
      split at h
      · rename_i hv
        cases h
        exact .inr ⟨rfl, ⟨stored, hs, hv⟩, hfaults.trans_renewed renewed_put⟩
      · cases h
        exact .inl ⟨_, rfl, hfaults⟩

end Versions

end Server

namespace JobIndex

variable {space : String}

/-! ## The value of the counter -/

theorem modulus_pos : 0 < modulus := by decide

/-- A counter that is set to a value is written as it. -/
theorem text?_textName_withValue (m : ConfigMap) (n : Nat) : (withValue m n).text? textName = some (toString n) := by
  rw [withValue, ConfigMap.text?_withTexts, SortedTable.ofList, SortedTable.insertAll, List.foldl_cons, List.foldl_nil,
    SortedTable.get?_insert_self, Option.some_or]

/-- A counter that is set to a value has it. -/
theorem stored_withValue (m : ConfigMap) {n : Nat} (hn : n < modulus) : stored (withValue m n) = n := by
  rw [stored, text?_textName_withValue, Option.bind_some, readNatural?_toString (by omega), Option.getD_some]

/-- The value of a counter is one of 64 bits. -/
theorem stored_lt (m : ConfigMap) : stored m < modulus := by
  unfold stored
  cases hread : (m.text? textName).bind (readNatural? (modulus - 1)) with
  | none => exact modulus_pos
  | some n =>
    obtain ⟨text, -, htext⟩ := Option.bind_eq_some_iff.1 hread
    exact Nat.lt_of_le_pred modulus_pos (le_of_readNatural? htext)

/-- The next value is by one greater, and one of 64 bits. -/
theorem following?_eq_some_iff {m : ConfigMap} {n : Nat} : following? m = some n ↔ n = stored m + 1 ∧ n < modulus := by
  rw [following?, Option.ite_none_right_eq_some, Option.some.injEq]
  constructor
  · rintro ⟨hlt, rfl⟩
    exact ⟨rfl, hlt⟩
  · rintro ⟨rfl, hlt⟩
    exact ⟨hlt, rfl⟩

/-- There is no next value just at the greatest one. -/
theorem following?_eq_none_iff {m : ConfigMap} : following? m = none ↔ stored m + 1 = modulus := by
  have hlt := stored_lt m
  rw [following?, ite_eq_right_iff]
  constructor
  · intro h
    by_contra hne
    cases h (by omega)
  · intro heq hlt'
    omega

end JobIndex

/-- The value of the counter in a world; zero when there is none. -/
def World.counter (w : World) (space : String) : Nat :=
  ((w.held (JobIndex.key space)).map fun m => JobIndex.stored m.map).getD 0

namespace JobIndex

theorem counter_lt (w : World) (space : String) : w.counter space < modulus := by
  unfold World.counter
  cases w.held (key space) with
  | none => exact modulus_pos
  | some m => exact stored_lt m.map

/-! ## One client -/

/-- What the loop does behind an attempt with some attempts left. -/
def proceed (space : String) (attempts left : Nat) :
    Except JobIndexError (Option Nat) → Program (Except JobIndexError Nat)
  | .ok (some n) => .done (.ok n)
  | .ok none => nextWithin space attempts left
  | .error e => .done (.error e)

/-- What the loop does when the counter has been read. -/
def advance (space : String) (attempts left : Nat) :
    Except ApiError (Option StoredMap) → Program (Except JobIndexError Nat)
  | .error e => .done (.error (.api e))
  | .ok none => .send (.createMap (key space) (withValue {} 1)) fun reply => proceed space attempts left (written 1 reply)
  | .ok (some found) =>
    match following? found.map with
    | none => .done (.error .crashed)
    | some next =>
      .send (.replaceMap (key space) found.version (withValue found.map next)) fun reply =>
        proceed space attempts left (written next reply)

theorem nextWithin_succ (space : String) (attempts left : Nat) :
    nextWithin space attempts (left + 1) = .send (.getMap (key space)) (advance space attempts left) := by
  have hloop : nextWithin space attempts (left + 1) = (attempt space).andThen (proceed space attempts left) := rfl
  rw [hloop]
  change Program.send (.getMap (key space)) _ = _
  congr 1
  funext reply
  rcases reply with e | _ | found
  · rfl
  · rfl
  · simp only [advance, Program.done_andThen]
    cases following? found.map <;> rfl

/-- The programs that drawing a number comes by. What is about to be replaced has been read. -/
inductive Drawing (space : String) (s : Server) : Program (Except JobIndexError Nat) → Prop
  | finished (result : Except JobIndexError Nat) : Drawing space s (.done result)
  | looking (attempts left : Nat) : Drawing space s (.send (.getMap (key space)) (advance space attempts left))
  | creating (attempts left : Nat) :
    Drawing space s
      (.send (.createMap (key space) (withValue {} 1)) fun reply => proceed space attempts left (written 1 reply))
  | replacing (found : StoredMap) (next attempts left : Nat) :
    s.Recalls (key space) found → following? found.map = some next →
    Drawing space s
      (.send (.replaceMap (key space) found.version (withValue found.map next)) fun reply =>
        proceed space attempts left (written next reply))

section Drawing

variable {s s' : Server} {p : Program (Except JobIndexError Nat)} {w w' : World}

theorem drawing_nextWithin (space : String) (s : Server) (attempts left : Nat) :
    Drawing space s (nextWithin space attempts left) := by
  cases left with
  | zero => exact .finished _
  | succ left =>
    rw [nextWithin_succ]
    exact .looking attempts left

/-- Whatever comes of an attempt, the loop ends or begins another one. -/
theorem drawing_proceed (space : String) (s : Server) (attempts left : Nat) (outcome : Except JobIndexError (Option Nat)) :
    Drawing space s (proceed space attempts left outcome) := by
  rcases outcome with e | _ | n
  · exact .finished _
  · exact drawing_nextWithin space s attempts left
  · exact .finished _

/-- A client goes by what it has read, whatever is written meanwhile. -/
theorem Drawing.mono (h : Drawing space s p)
    (hs : ∀ found, s.Recalls (key space) found → s'.Recalls (key space) found) : Drawing space s' p := by
  cases h with
  | finished result => exact .finished result
  | looking attempts left => exact .looking attempts left
  | creating attempts left => exact .creating attempts left
  | replacing found next attempts left hfound hnext => exact .replacing found next attempts left (hs found hfound) hnext

/-- When the counter has been read the loop ends, or writes the value after what was read. -/
theorem drawing_advance {reply : Except ApiError (Option StoredMap)} (attempts left : Nat)
    (h : ∀ found, reply = .ok (some found) → s.Recalls (key space) found) :
    Drawing space s (advance space attempts left reply) := by
  rcases reply with e | _ | found
  · exact .finished _
  · exact .creating attempts left
  · dsimp only [advance]
    cases hnext : following? found.map with
    | none => exact .finished _
    | some next => exact .replacing found next attempts left (h found rfl) hnext

/-- The number that a program has drawn, if it has come to its end with one. -/
def drawn? (p : Program (Except JobIndexError Nat)) : Option Nat := p.result?.bind Except.toOption

/-- A look at the counter draws nothing. -/
theorem drawn?_advance (attempts left : Nat) (reply : Except ApiError (Option StoredMap)) :
    drawn? (advance space attempts left reply) = none := by
  rcases reply with e | _ | found
  · rfl
  · rfl
  · dsimp only [advance]
    cases following? found.map <;> rfl

/-- A write that fails draws nothing. -/
theorem drawn?_proceed_error (attempts left n : Nat) (e : ApiError) :
    drawn? (proceed space attempts left (written n (.error e))) = none := by
  by_cases he : e = .conflict
  · have hagain : written n (.error e) = .ok none := if_pos he
    rw [hagain]
    cases left with
    | zero => rfl
    | succ left =>
      rw [proceed, nextWithin_succ]
      rfl
  · have hfailed : written n (.error e) = .error (.api e) := if_neg he
    rw [hfailed]
    rfl

/-- What a reply makes of the counter, and of the number that a client may have drawn by it: nothing is written and nothing is
drawn, or the value after that of the counter is written and drawn. -/
def Advances (space : String) (w w' : World) (drawn : Option Nat) : Prop :=
  (w.server.Untouched (key space) w'.server ∧ drawn = none) ∨
    ∃ map, w.server.Renewed (key space) map w'.server ∧ stored map = w.counter space + 1 ∧ drawn = some (stored map)

/-- One request of a client. -/
theorem Drawing.answer {r : Request} {next : r.Reply → Program (Except JobIndexError Nat)} {reply : r.Reply}
    (h : Drawing space w.server (.send r next)) (hraces : ∀ race ∈ w.server.races, race.1 ≠ mapName)
    (hfresh : ∀ m, w.held (key space) = some m → m.version < w.server.nextVersion) (hw : w.answer r = (reply, w')) :
    Advances space w w' (drawn? (next reply)) ∧ Drawing space w'.server (next reply) := by
  cases h with
  | looking attempts left =>
    change w.contact (·.get (key space)) = (reply, w') at hw
    have huntouched : w.server.Untouched (key space) w'.server := by
      obtain ⟨-, rfl⟩ | hget := World.contact_cases hw
      · exact Server.Untouched.refl _ _
      · exact Server.untouched_get hget
    refine ⟨.inl ⟨huntouched, drawn?_advance attempts left reply⟩, drawing_advance attempts left fun found hfound => ?_⟩
    have hheld : w.held (key space) = some found := (World.getMap_cases hw).2 found hfound
    have hrecalls : w.server.Recalls (key space) found := by
      refine ⟨hfresh found hheld, fun m hm _ => ?_⟩
      exact Option.some.inj (hm.symm.trans hheld)
    exact hrecalls.untouched huntouched
  | creating attempts left =>
    change w.contact (·.create (key space) (withValue {} 1)) = (reply, w') at hw
    have hwrite : (∃ e, reply = .error e ∧ w.server.Untouched (key space) w'.server) ∨
        reply = .ok () ∧ w.held (key space) = none ∧ w.server.Renewed (key space) (withValue {} 1) w'.server := by
      obtain ⟨rfl, rfl⟩ | hcreate := World.contact_cases hw
      · exact .inl ⟨_, rfl, Server.Untouched.refl _ _⟩
      · exact Server.create_renewed hraces hcreate
    refine ⟨?_, drawing_proceed space _ attempts left _⟩
    obtain ⟨e, rfl, huntouched⟩ | ⟨rfl, hnone, hrenewed⟩ := hwrite
    · exact .inl ⟨huntouched, drawn?_proceed_error attempts left 1 e⟩
    · have hone : stored (withValue {} 1) = 1 := stored_withValue {} (by decide)
      have hzero : w.counter space = 0 := by
        rw [World.counter, hnone]
        rfl
      refine .inr ⟨_, hrenewed, ?_, ?_⟩
      · rw [hone, hzero]
      · rw [hone]
        rfl
  | replacing found n attempts left hrecalls hn =>
    change w.contact (·.replace (key space) found.version (withValue found.map n)) = (reply, w') at hw
    have hwrite : (∃ e, reply = .error e ∧ w.server.Untouched (key space) w'.server) ∨
        reply = .ok () ∧ (∃ old, w.held (key space) = some old ∧ old.version = found.version) ∧
          w.server.Renewed (key space) (withValue found.map n) w'.server := by
      obtain ⟨rfl, rfl⟩ | hreplace := World.contact_cases hw
      · exact .inl ⟨_, rfl, Server.Untouched.refl _ _⟩
      · exact Server.replace_renewed hreplace
    refine ⟨?_, drawing_proceed space _ attempts left _⟩
    obtain ⟨e, rfl, huntouched⟩ | ⟨rfl, ⟨old, hold, hversion⟩, hrenewed⟩ := hwrite
    · exact .inl ⟨huntouched, drawn?_proceed_error attempts left _ e⟩
    · -- What is replaced is what was read, because it has the version that was read.
      have heq : old = found := hrecalls.2 old hold hversion
      have hvalue : w.counter space = stored found.map := by
        rw [World.counter, hold, heq]
        rfl
      obtain ⟨hnext, hlt⟩ := following?_eq_some_iff.1 hn
      have hstored : stored (withValue found.map n) = n := stored_withValue found.map hlt
      refine .inr ⟨_, hrenewed, ?_, ?_⟩
      · rw [hstored, hvalue, hnext]
      · rw [hstored]
        rfl

/-- What a reply makes of the value of the counter. -/
theorem Advances.counter {drawn : Option Nat} (h : Advances space w w' drawn) :
    (drawn = none ∧ w'.counter space = w.counter space) ∨
      drawn = some (w.counter space + 1) ∧ w'.counter space = w.counter space + 1 := by
  obtain ⟨huntouched, rfl⟩ | ⟨map, hrenewed, hmap, rfl⟩ := h
  · have hheld : w'.held (key space) = w.held (key space) := huntouched.held_eq
    refine .inl ⟨rfl, ?_⟩
    rw [World.counter, hheld]
    rfl
  · obtain ⟨version, hheld, -, -⟩ := hrenewed.held_eq
    have hheld' : w'.held (key space) = some ⟨map, version⟩ := hheld
    rw [← hmap]
    refine .inr ⟨rfl, ?_⟩
    rw [World.counter, hheld']
    rfl

end Drawing

/-! ## All clients -/

/-- Clients that draw numbers, each with the number of its attempts. -/
def counters (w : World) (space : String) (retries : List Nat) : Crowd (Except JobIndexError Nat) :=
  ⟨w, retries.map (next space)⟩

/-- The numbers that clients draw at some turns, in the order of the turns. A client comes to its end by its last write, so
this is the order of the writes. -/
def numbers (c : Crowd (Except JobIndexError Nat)) (turns : List Turn) : List Nat :=
  (c.results turns).filterMap Except.toOption

/-- What holds at all times while numbers are drawn: nobody waits to create the counter, its version is an old one, and every
client goes by what it has read. -/
structure Coherent (space : String) (c : Crowd (Except JobIndexError Nat)) : Prop where
  races : ∀ race ∈ c.world.server.races, race.1 ≠ mapName
  fresh : ∀ m, c.world.held (key space) = some m → m.version < c.world.server.nextVersion
  drawing : ∀ p ∈ c.clients, Drawing space c.world.server p

section Coherent

variable {c : Crowd (Except JobIndexError Nat)} {turn : Turn}

/-- A turn at which nothing is written under the key of the counter. -/
theorem Coherent.untouched {w' : World} {clients : List (Program (Except JobIndexError Nat))} (h : Coherent space c)
    (hs : c.world.server.Untouched (key space) w'.server) (hclients : ∀ p ∈ clients, Drawing space w'.server p) :
    Coherent space ⟨w', clients⟩ where
  races race hrace := h.races race (hs.races race hrace)
  fresh m hm := by
    have hheld : w'.held (key space) = c.world.held (key space) := hs.held_eq
    exact Nat.lt_of_lt_of_le (h.fresh m (hheld ▸ hm)) hs.versions
  drawing := hclients

/-- A turn at which the counter is written. -/
theorem Coherent.renewed {w' : World} {map : ConfigMap} {clients : List (Program (Except JobIndexError Nat))}
    (h : Coherent space c) (hs : c.world.server.Renewed (key space) map w'.server)
    (hclients : ∀ p ∈ clients, Drawing space w'.server p) : Coherent space ⟨w', clients⟩ where
  races race hrace := h.races race (hs.races race hrace)
  fresh m hm := by
    obtain ⟨version, hheld, -, hlt⟩ := hs.held_eq
    have hheld' : w'.held (key space) = some ⟨map, version⟩ := hheld
    cases hheld'.symm.trans hm
    exact hlt
  drawing := hclients

/-- At a turn the counter stays as it is and nobody draws a number, or it moves on by one and somebody draws its new value. -/
theorem Coherent.step (h : Coherent space c) (ht : ∀ deed, turn = .other deed → deed.key ≠ key space) :
    Coherent space (c.step turn) ∧ Advances space c.world (c.step turn).world ((c.finished? turn).bind Except.toOption) := by
  cases turn with
  | other deed =>
    have huntouched : c.world.server.Untouched (key space) (c.world.server.undergo deed) :=
      Server.untouched_undergo (ht deed rfl)
    refine ⟨h.untouched huntouched fun p hp => ?_, .inl ⟨huntouched, rfl⟩⟩
    exact (h.drawing p hp).mono fun found hfound => hfound.untouched huntouched
  | client i =>
    simp only [Crowd.step, Crowd.finished?]
    split
    · rename_i r next hi
      have hmem : Program.send r next ∈ c.clients := List.mem_of_getElem? hi
      obtain ⟨hadvances, hnext⟩ := (h.drawing _ hmem).answer h.races h.fresh (Prod.ext rfl rfl)
      refine ⟨?_, hadvances⟩
      -- The client of the turn has its new program, the others their old ones.
      have hclients : (∀ found, c.world.server.Recalls (key space) found →
          (c.world.answer r).2.server.Recalls (key space) found) →
          ∀ p ∈ c.clients.set i (next (c.world.answer r).1), Drawing space (c.world.answer r).2.server p := by
        intro hrecalls p hp
        rcases List.mem_or_eq_of_mem_set hp with hp | rfl
        · exact (h.drawing p hp).mono hrecalls
        · exact hnext
      obtain ⟨huntouched, -⟩ | ⟨map, hrenewed, -, -⟩ := hadvances
      · exact h.untouched huntouched (hclients fun found hfound => hfound.untouched huntouched)
      · exact h.renewed hrenewed (hclients fun found hfound => hfound.renewed hrenewed)
    · exact ⟨h, .inl ⟨Server.Untouched.refl _ _, rfl⟩⟩

theorem numbers_cons (c : Crowd (Except JobIndexError Nat)) (turn : Turn) (rest : List Turn) :
    numbers c (turn :: rest) = ((c.finished? turn).bind Except.toOption).toList ++ numbers (c.step turn) rest := by
  rw [numbers, Crowd.results, List.filterMap_append]
  cases c.finished? turn with
  | none => rfl
  | some result => cases result <;> rfl

/-- Through all turns each number drawn is one more than the one drawn before it, or than the value at first, and the counter has
the last one. -/
theorem Coherent.run {turns : List Turn} (h : Coherent space c)
    (ht : ∀ deed, .other deed ∈ turns → deed.key ≠ key space) :
    List.IsChain (fun m n => n = m + 1) (c.world.counter space :: numbers c turns) ∧
      (c.run turns).world.counter space = (c.world.counter space :: numbers c turns).getLast (List.cons_ne_nil _ _) := by
  induction turns generalizing c with
  | nil => exact ⟨List.isChain_singleton _, rfl⟩
  | cons turn rest ih =>
    have hturn : ∀ deed, turn = .other deed → deed.key ≠ key space := by
      intro deed heq
      exact ht deed (heq ▸ List.mem_cons_self)
    obtain ⟨hcoherent, hadvances⟩ := h.step hturn
    obtain ⟨hchain, hlast⟩ := ih hcoherent fun deed hmem => ht deed (List.mem_cons_of_mem turn hmem)
    have hrun : c.run (turn :: rest) = (c.step turn).run rest := rfl
    rw [hrun]
    simp only [numbers_cons]
    obtain ⟨hnone, hcounter⟩ | ⟨hsome, hcounter⟩ := hadvances.counter
    · simp only [hnone, Option.toList_none, List.nil_append]
      rw [← hcounter]
      exact ⟨hchain, hlast⟩
    · simp only [hsome, Option.toList_some, List.singleton_append]
      rw [hcounter] at hchain
      refine ⟨List.isChain_cons_cons.2 ⟨rfl, hchain⟩, ?_⟩
      rw [hlast, List.getLast_cons (List.cons_ne_nil _ _)]
      simp only [hcounter]

end Coherent

/-! ## Numbers in a row -/

/-- A row of numbers in which each is one more than the one before it counts on from its start. -/
theorem eq_range'_of_isChain {start : Nat} {ns : List Nat} (h : List.IsChain (fun m n => n = m + 1) (start :: ns)) :
    ns = List.range' (start + 1) ns.length := by
  induction ns generalizing start with
  | nil => rfl
  | cons n ns ih =>
    obtain ⟨rfl, hrest⟩ := List.isChain_cons_cons.1 h
    rw [List.length_cons, List.range'_succ, ← ih hrest]

/-- Clients that have not begun draw numbers, if nobody else waits to create the counter and versions are given once. -/
theorem coherent_counters {w : World} {retries : List Nat}
    (hversions : ∀ m, w.held (key space) = some m → m.version < w.server.nextVersion)
    (hraces : ∀ race ∈ w.server.races, race.1 ≠ mapName) : Coherent space (counters w space retries) where
  races := hraces
  fresh := hversions
  drawing p hp := by
    obtain ⟨attempts, -, rfl⟩ := List.mem_map.1 hp
    exact drawing_nextWithin space w.server attempts attempts

end JobIndex

open JobIndex

/-- No number of the counter is drawn twice. Whatever the order of the clients' requests, and whichever of them fail, as long as
nobody else writes to the counter: each number drawn is one more than the one drawn before it, or than the value of the counter at
first, so that all of them count on from that value without a gap and do not go beyond the greatest value, and the counter has the
last one. -/
theorem job_numbers_drawn_once (w : World) (space : String) (retries : List Nat) (turns : List Turn)
    (hversions : ∀ m, w.held (key space) = some m → m.version < w.server.nextVersion)
    (hraces : ∀ race ∈ w.server.races, race.1 ≠ mapName)
    (hothers : ∀ deed, .other deed ∈ turns → deed.key ≠ key space) :
    let ns := numbers (counters w space retries) turns
    ns.Nodup ∧ List.IsChain (fun m n => n = m + 1) (w.counter space :: ns) ∧
      ((counters w space retries).run turns).world.counter space =
        (w.counter space :: ns).getLast (List.cons_ne_nil _ _) ∧
      ns = List.range' (w.counter space + 1) ns.length ∧ w.counter space + ns.length < modulus := by
  intro ns
  have hcoherent : Coherent space (counters w space retries) := coherent_counters hversions hraces
  obtain ⟨hchain, hlast⟩ := hcoherent.run hothers
  have hrow : ns = List.range' (w.counter space + 1) ns.length := eq_range'_of_isChain hchain
  have hnodup : ns.Nodup := by
    rw [hrow]
    exact List.nodup_range'
  have hfits : w.counter space + ns.length < modulus := by
    have hall : w.counter space :: ns = List.range' (w.counter space) (ns.length + 1) := by
      rw [List.range'_succ, ← hrow]
    have hend : (w.counter space :: ns).getLast (List.cons_ne_nil _ _) = w.counter space + ns.length := by
      simp only [hall, List.getLast_range']
      omega
    calc w.counter space + ns.length
      _ = ((counters w space retries).run turns).world.counter space := hend.symm.trans hlast.symm
      _ < modulus := counter_lt _ space
  exact ⟨hnodup, hchain, hlast, hrow, hfits⟩

/-- A world in which the counter is at 41. -/
def countedWorld : World :=
  { server := { maps := .ofList [(key "runai", ⟨withValue {} 41, 1⟩)], nextVersion := 2 } }

/-- Two clients read the same value. The one that writes first draws 42, the other one has to read again and draws 43. -/
theorem two_numbers_drawn :
    numbers (counters countedWorld "runai" [5, 5]) [.client 0, .client 1, .client 0, .client 1, .client 1, .client 1] = [42, 43] ∧
      [42, 43].Nodup ∧
      ((counters countedWorld "runai" [5, 5]).run
        [.client 0, .client 1, .client 0, .client 1, .client 1, .client 1]).world.counter "runai" = 43 := by
  have hnumbers : numbers (counters countedWorld "runai" [5, 5])
      [.client 0, .client 1, .client 0, .client 1, .client 1, .client 1] = [42, 43] := by rfl
  have hversions : ∀ m, countedWorld.held (key "runai") = some m → m.version < countedWorld.server.nextVersion := by
    intro m hm
    have hheld : countedWorld.held (key "runai") = some ⟨withValue {} 41, 1⟩ := by rfl
    cases hheld.symm.trans hm
    decide
  obtain ⟨hnodup, -, hlast, -⟩ := job_numbers_drawn_once countedWorld "runai" [5, 5]
    [.client 0, .client 1, .client 0, .client 1, .client 1, .client 1] hversions (by simp [countedWorld]) (by simp)
  simp only [hnumbers] at hnodup hlast
  exact ⟨hnumbers, hnodup, hlast⟩

end TrainingJobs

import TrainingJobs.Proofs.Counting
import TrainingJobs.Proofs.SubmittingPaths
import TrainingJobs.Proofs.Undisturbed
import TrainingJobs.Proofs.Verdicts

/-!
# Steps of the counter

Where no other client writes, a number that is drawn is by one greater than the counter, whatever is stored there and whichever
requests fail in between; the counter has it afterwards, all else stays, and nothing is written where none is drawn (`JobIndex.Draws`).
There is no number behind the greatest value: who reads that crashes before the counter is written to (`counter_adds_one`).
-/

namespace TrainingJobs

/-! ## Requests where nobody else writes -/

namespace Server.Unrivalled

variable {s s' : Server} (hs : s.Unrivalled)
include hs

theorem withFaults (faults : List Fault) : { s with faults := faults }.Unrivalled := ⟨hs.races, hs.racing⟩

/-- A look brings nobody in. -/
theorem get {key : ObjectKey} {reply : Except ApiError (Option StoredMap)} (h : s.get key = (reply, s')) : s'.Unrivalled := by
  obtain ⟨faults, rfl⟩ := get_effect h
  exact hs.withFaults faults

/-- A replacement that fails brings nobody in. -/
theorem replace {key : ObjectKey} {version : Nat} {map : ConfigMap} {e : ApiError}
    (h : s.replace key version map = (.error e, s')) : s'.Unrivalled := by
  obtain ⟨faults, ⟨status, -, rfl⟩ | hserved⟩ := serve_cases h
  · exact hs.withFaults faults
  · dsimp only at hserved
    split at hserved
    · cases hserved
      exact hs.withFaults faults
    · split at hserved
      · cases hserved
      · cases hserved
        exact hs.withFaults faults

end Server.Unrivalled

namespace JobIndex

variable {space : String} {w w₁ w' : World}

/-! ## Drawing a number -/

/-- The counter has a value, the other texts and the labels of its config map and all other config maps are as they were. -/
structure Moved (space : String) (w w' : World) (n : Nat) : Prop where
  counter : ∃ m, w'.held (key space) = some m ∧ m.map.text? textName = some (toString n) ∧
    SameButCount (((w.held (key space)).map (·.map)).getD {}) m.map
  others : ∀ k, k ≠ key space → w'.held k = w.held k

/-- Drawing a number in a world gives a certain one, if any, which is one of 64 bits and to which the counter has moved then; else the
config maps are as they were. The program crashes only where the number would be the first that has more bits. At most two requests are
sent for each attempt. -/
structure Draws (w : World) (space : String) (retries n : Nat) : Prop where
  drawn : ∀ m, ((next space retries).run w).1 = .ok m → m = n ∧ n < modulus ∧ Moved space w ((next space retries).run w).2 n
  failed : ∀ e, ((next space retries).run w).1 = .error e → ((next space retries).run w).2.held = w.held
  crashed : ((next space retries).run w).1 = .error .crashed → n = modulus
  requests : ((next space retries).exchanges w).length ≤ 2 * retries

/-- A config map is put under the key of the counter. -/
theorem moved_of_put {old : ConfigMap} {n v : Nat} (hold : ((w.held (key space)).map (·.map)).getD {} = old)
    (hheld : ∀ k, w'.held k = if k = key space then some ⟨withValue old n, v⟩ else w.held k) : Moved space w w' n where
  counter := by
    refine ⟨⟨withValue old n, v⟩, ?_, text?_textName_withValue old n, ?_⟩
    · rw [hheld, if_pos rfl]
    · rw [hold]
      exact sameButCount_withValue old n
  others k hk := by rw [hheld, if_neg hk]

/-- A world with the same config maps does not differ for the counter. -/
theorem counter_of_held (h : w₁.held = w.held) : w₁.counter space = w.counter space := by
  rw [World.counter, h, ← World.counter]

theorem Moved.of_held {n : Nat} (h : Moved space w₁ w' n) (hheld : w₁.held = w.held) : Moved space w w' n where
  counter := hheld ▸ h.counter
  others k hk := (h.others k hk).trans (congrFun hheld k)

/-- Creating the counter. -/
theorem createMap_moves (hw : w.server.Unrivalled) {reply : Except ApiError Unit}
    (h : w.answer (.createMap (key space) (withValue {} 1)) = (reply, w')) :
    (reply = .ok () ∧ w.counter space = 0 ∧ Moved space w w' 1) ∨
      (∃ e, reply = .error e) ∧ w'.server.Unrivalled ∧ w'.held = w.held := by
  change w.contact (·.create (key space) (withValue {} 1)) = (reply, w') at h
  obtain ⟨rfl, rfl⟩ | hserved := World.contact_cases h
  · exact .inr ⟨⟨_, rfl⟩, hw, rfl⟩
  · obtain ⟨e, rfl, hw', hheld⟩ | ⟨rfl, hfree, v, hheld⟩ := hw.create hserved
    · exact .inr ⟨⟨e, rfl⟩, hw', hheld⟩
    · have hnone : w.held (key space) = none := hfree
      have hold : ((w.held (key space)).map (·.map)).getD {} = ({} : ConfigMap) := by
        rw [hnone]
        rfl
      have hzero : w.counter space = 0 := by
        rw [World.counter, hnone]
        rfl
      exact .inl ⟨rfl, hzero, moved_of_put hold hheld⟩

/-- Replacing the counter as it is. -/
theorem replaceMap_moves (hw : w.server.Unrivalled) {m : StoredMap} (hm : w.held (key space) = some m) {n : Nat}
    {reply : Except ApiError Unit} (h : w.answer (.replaceMap (key space) m.version (withValue m.map n)) = (reply, w')) :
    (reply = .ok () ∧ Moved space w w' n) ∨ (∃ e, reply = .error e) ∧ w'.server.Unrivalled ∧ w'.held = w.held := by
  obtain ⟨e, rfl, hheld⟩ | ⟨rfl, -, v, hheld⟩ := World.replaceMap_cases h
  · refine .inr ⟨⟨e, rfl⟩, ?_, hheld⟩
    change w.contact (·.replace (key space) m.version _) = (.error e, w') at h
    obtain ⟨-, rfl⟩ | hserved := World.contact_cases h
    · exact hw
    · exact hw.replace hserved
  · have hold : ((w.held (key space)).map (·.map)).getD {} = m.map := by
      rw [hm]
      rfl
    exact .inl ⟨rfl, moved_of_put hold hheld⟩

/-- What comes of a write that fails is no number. -/
theorem written_error_ne (n m : Nat) (e : ApiError) : written n (.error e) ≠ .ok (some m) := by
  intro h
  rw [written] at h
  split at h <;> cases h

/-- What is read of the counter is its value. -/
theorem counter_of_held_some {m : StoredMap} (h : w.held (key space) = some m) : w.counter space = stored m.map := by
  rw [World.counter, h]
  rfl

/-- An attempt where nobody else writes: it draws the number that comes next to the counter, or leaves the config maps as they are,
and still nobody else writes. -/
theorem attempt_moves (hw : w.server.Unrivalled) {outcome : Except JobIndexError (Option Nat)}
    (h : (attempt space).run w = (outcome, w')) :
    (outcome = .ok (some (w.counter space + 1)) ∧ w.counter space + 1 < modulus ∧ Moved space w w' (w.counter space + 1)) ∨
      (∀ n, outcome ≠ .ok (some n)) ∧ (outcome = .error .crashed → w.counter space + 1 = modulus) ∧
        w'.server.Unrivalled ∧ w'.held = w.held := by
  obtain ⟨found, w₁, hlook⟩ : ∃ found w₁, w.answer (.getMap (key space)) = (found, w₁) := ⟨_, _, rfl⟩
  obtain ⟨hsame, hfound⟩ := World.getMap_cases hlook
  have hw₁ : w₁.server.Unrivalled := by
    change w.contact (·.get (key space)) = (found, w₁) at hlook
    obtain ⟨-, rfl⟩ | hget := World.contact_cases hlook
    · exact hw
    · exact hw.get hget
  have hattempt : (attempt space).run w = _ := Program.run_ask_andThen hlook
  rw [hattempt] at h
  rcases found with e | _ | m
  · cases h
    exact .inr ⟨nofun, nofun, hw₁, hsame⟩
  · -- Nothing was found, which need not be so: a look that fails as one at nothing finds nothing, and the creation is refused.
    obtain ⟨reply, w₂, hcreate⟩ : ∃ reply w₂, w₁.answer (.createMap (key space) (withValue {} 1)) = (reply, w₂) := ⟨_, _, rfl⟩
    have hrun := Program.run_ask_andThen (f := fun reply => .done (written 1 reply)) hcreate
    cases hrun.symm.trans h
    obtain ⟨rfl, hzero, hmoved⟩ | ⟨⟨e, rfl⟩, hw', hheld⟩ := createMap_moves hw₁ hcreate
    · rw [counter_of_held hsame] at hzero
      rw [hzero]
      exact .inl ⟨rfl, by decide, hmoved.of_held hsame⟩
    · exact .inr ⟨fun n => written_error_ne 1 n e, fun hcrash => absurd hcrash (written_ne_crashed 1 _), hw', hheld.trans hsame⟩
  · have hheld₀ : w.held (key space) = some m := hfound m rfl
    rw [counter_of_held_some hheld₀]
    dsimp only at h
    cases hnext : following? m.map with
    | none =>
      rw [hnext] at h
      cases h
      exact .inr ⟨nofun, fun _ => following?_eq_none_iff.1 hnext, hw₁, hsame⟩
    | some next =>
      rw [hnext] at h
      obtain ⟨rfl, hlt⟩ := following?_eq_some_iff.1 hnext
      obtain ⟨reply, w₂, hreplace⟩ :
        ∃ reply w₂, w₁.answer (.replaceMap (key space) m.version (withValue m.map (stored m.map + 1))) = (reply, w₂) := ⟨_, _, rfl⟩
      have hrun := Program.run_ask_andThen (f := fun reply => .done (written (stored m.map + 1) reply)) hreplace
      cases hrun.symm.trans h
      obtain ⟨rfl, hmoved⟩ | ⟨⟨e, rfl⟩, hw', hheld⟩ := replaceMap_moves hw₁ (hsame ▸ hheld₀) hreplace
      · exact .inl ⟨rfl, hlt, hmoved.of_held hsame⟩
      · exact .inr ⟨fun n => written_error_ne _ n e, fun hcrash => absurd hcrash (written_ne_crashed _ _), hw', hheld.trans hsame⟩

/-- Attempts one after the other do the same as one, since those that are in vain change nothing. -/
theorem nextWithin_moves {attempts left : Nat} (hw : w.server.Unrivalled) {result : Except JobIndexError Nat}
    (h : (nextWithin space attempts left).run w = (result, w')) :
    (result = .ok (w.counter space + 1) ∧ w.counter space + 1 < modulus ∧ Moved space w w' (w.counter space + 1)) ∨
      (∃ e, result = .error e) ∧ (result = .error .crashed → w.counter space + 1 = modulus) ∧ w'.held = w.held := by
  induction left generalizing w with
  | zero =>
    cases h
    exact .inr ⟨⟨_, rfl⟩, nofun, rfl⟩
  | succ left ih =>
    obtain ⟨outcome, w₁, hattempt⟩ : ∃ outcome w₁, (attempt space).run w = (outcome, w₁) := ⟨_, _, rfl⟩
    rw [nextWithin, Program.bind_eq, Program.run_andThen, hattempt] at h
    obtain ⟨rfl, hlt, hmoved⟩ | ⟨hnone, hcrashed, hw₁, hheld⟩ := attempt_moves hw hattempt
    · cases h
      exact .inl ⟨rfl, hlt, hmoved⟩
    · rcases outcome with e | _ | n
      · cases h
        refine .inr ⟨⟨_, rfl⟩, fun hcrash => hcrashed ?_, hheld⟩
        rw [Except.error.inj hcrash]
      · have hrest := ih hw₁ h
        rw [counter_of_held hheld] at hrest
        obtain ⟨hresult, hlt, hmoved⟩ | ⟨hfailed, hcrash, hsame⟩ := hrest
        · exact .inl ⟨hresult, hlt, hmoved.of_held hheld⟩
        · exact .inr ⟨hfailed, hcrash, hsame.trans hheld⟩
      · exact absurd rfl (hnone n)

/-- Whatever is replied, each attempt is a look and perhaps a write. -/
theorem length_le_of_nextWithin {attempts left : Nat} {xs : List Exchange} {result : Except JobIndexError Nat}
    (h : (nextWithin space attempts left).Yields xs result) : xs.length ≤ 2 * left := by
  induction left generalizing xs with
  | zero =>
    obtain ⟨rfl, -⟩ := Program.done_yields_iff.1 h
    exact Nat.zero_le _
  | succ left ih =>
    obtain ⟨ys, outcome, zs, hattempt, hrest, rfl⟩ := Program.andThen_yields_iff.1 h
    have hys : ys.length ≤ 2 := by
      cases (attempt_yields hattempt).1 <;> simp
    have hzs : zs.length ≤ 2 * left := by
      rcases outcome with e | _ | n
      · obtain ⟨rfl, -⟩ := Program.done_yields_iff.1 hrest
        exact Nat.zero_le _
      · exact ih hrest
      · obtain ⟨rfl, -⟩ := Program.done_yields_iff.1 hrest
        exact Nat.zero_le _
    rw [List.length_append]
    omega

/-- Where nobody else writes the number that is drawn is the one next to the counter. -/
theorem draws (hw : w.server.Unrivalled) (retries : Nat) : Draws w space retries (w.counter space + 1) where
  drawn m hm := by
    obtain ⟨hresult, hlt, hmoved⟩ | ⟨⟨e, hresult⟩, -⟩ := nextWithin_moves hw (Prod.ext hm rfl)
    · exact ⟨Except.ok.inj hresult, hlt, hmoved⟩
    · cases hresult
  failed e he := by
    obtain ⟨hresult, -⟩ | ⟨-, -, hheld⟩ := nextWithin_moves hw (Prod.ext he rfl)
    · cases hresult
    · exact hheld
  crashed he := by
    obtain ⟨hresult, -⟩ | ⟨-, hcrashed, -⟩ := nextWithin_moves hw (Prod.ext he rfl)
    · cases hresult
    · exact hcrashed rfl
  requests := length_le_of_nextWithin ((next space retries).run_yields w)

/-- In a quiet world the first attempt draws the next number, or crashes because there is none. -/
theorem nextWithin_of_quiet (hw : w.Quiet) (space : String) (attempts left : Nat) :
    ((nextWithin space attempts (left + 1)).run w).1 =
      if w.counter space + 1 < modulus then .ok (w.counter space + 1) else .error .crashed := by
  rw [nextWithin_succ, Program.run_send, hw.answer_getMap]
  cases hheld : w.held (key space) with
  | none =>
    have hzero : w.counter space = 0 := by
      rw [World.counter, hheld]
      rfl
    rw [hzero, if_pos (by decide), advance, Program.run_send, hw.answer_createMap, if_pos hheld]
    rfl
  | some m =>
    rw [counter_of_held_some hheld]
    dsimp only [advance]
    cases hnext : following? m.map with
    | none =>
      have hgreatest := following?_eq_none_iff.1 hnext
      rw [if_neg (by omega)]
      rfl
    | some next =>
      obtain ⟨rfl, hlt⟩ := following?_eq_some_iff.1 hnext
      rw [if_pos hlt, Program.run_send, hw.answer_replaceMap _ hheld]
      rfl

end JobIndex

open JobIndex

/-- Drawing a number adds one to the counter, whatever is stored. Where nobody else writes, and whatever fails, a number that is drawn is
by one greater than the counter, which is zero when there is none that can be read, and the counter is moved to it, with its labels and
other texts and all else as they were; where none is drawn nothing is written. Where nothing fails either, the number is drawn, unless the
counter has its greatest value: there the program crashes. -/
theorem counter_adds_one (space : String) :
    (∀ w retries, w.server.Unrivalled → Draws w space retries (w.counter space + 1)) ∧
    ∀ w retries, w.Quiet → 0 < retries →
      ((next space retries).run w).1 =
        if w.counter space + 1 < modulus then .ok (w.counter space + 1) else .error .crashed := by
  refine ⟨fun w retries hw => draws hw retries, fun w retries hw hpos => ?_⟩
  obtain ⟨left, rfl⟩ := Nat.exists_eq_succ_of_ne_zero (Nat.ne_of_gt hpos)
  exact nextWithin_of_quiet hw space (left + 1) left

/-- A counter of 41 goes on to 42. -/
theorem counter_adds_one_of_counted :
    countedWorld.server.Unrivalled ∧ countedWorld.Quiet ∧ Draws countedWorld "runai" 5 42 ∧
      ((next "runai" 5).run countedWorld).1 = .ok 42 := by
  have hcounter : countedWorld.counter "runai" = 41 := by rfl
  have hquiet : countedWorld.Quiet := ⟨rfl, rfl, rfl, rfl⟩
  obtain ⟨hdraws, hdrawn⟩ := counter_adds_one "runai"
  refine ⟨⟨rfl, rfl⟩, hquiet, ?_, ?_⟩
  · have h := hdraws countedWorld 5 ⟨rfl, rfl⟩
    rwa [hcounter] at h
  · rw [hdrawn countedWorld 5 hquiet (by decide), hcounter]
    rfl

/-- A world in which the counter has its greatest value. -/
def countedOut : World :=
  { server := { maps := .ofList [(key "runai", ⟨withValue {} 18446744073709551615, 1⟩)], nextVersion := 2 } }

example : ((next "runai" 5).run countedOut).1 = .error .crashed := by rfl

end TrainingJobs

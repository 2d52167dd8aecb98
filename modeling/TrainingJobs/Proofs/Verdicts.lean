import TrainingJobs.Proofs.Registering

/-!
# How registrations end

A registration tries the name itself, and with automatic names a bounded number of numbered names, each behind a listing of its own.
Whatever the server answers, its verdict is told by the answers (`registration_verdict`): a collision or exhaustion just when all that it
tried was taken, and any other failure as it comes, without a further request. Where it fails it has stored nothing.
-/

namespace TrainingJobs

variable {xs : List Exchange} {requested : JobName} {space : String} {result : Except RegistrationError JobIdentity}

/-! ## Answers to a registration -/

namespace Registration

/-- The name of an exchange was found taken. -/
def isTaken : Exchange → Bool
  | ⟨.createMap _ _, .error e⟩ => e = .conflict
  | _ => false

/-- A listing has failed, or a creation for another reason than that its name was taken. -/
def Fails : Exchange → ApiError → Prop
  | ⟨.listMaps _ _ _, .error e'⟩, e => e' = e
  | ⟨.createMap _ _, .error e'⟩, e => e' = e ∧ e ≠ .conflict
  | _, _ => False

/-- A creation comes right behind a listing of the family, for the candidate that this leaves. -/
def BehindListing (requested : JobName) (space : String) (before : List Exchange) (x : Exchange) : Prop :=
  ∃ earlier maps, before = earlier ++ [listed requested space maps] ∧
    x.request = (nextCandidate requested space maps).stored.request

/-- A failure ends a registration: no request follows, and it is what is answered. -/
def EndsAtFailure (xs : List Exchange) (result : Except RegistrationError JobIdentity) : Prop :=
  ∀ before x later e, xs = before ++ x :: later → Fails x e → later = [] ∧ result = .error (.registry (.api e))

/-- The exchanges and the result of a registration, by the answers that it got. At most two requests are sent for each attempt and
one before them, and a creation is the first request, for the name itself, or comes right behind a listing of its own. It ends with
a collision just when the name itself was taken and no other was wanted, with exhaustion just when others were wanted and all that
were tried were taken, and at once with any other failure; it fails in no other way, and without having stored anything. -/
structure Verdict (retries : Nat) (requested : JobName) (space : String) (autoName : Bool) (xs : List Exchange)
    (result : Except RegistrationError JobIdentity) : Prop where
  length_le : xs.length ≤ 1 + 2 * retries
  creations : ∀ before x later key map, xs = before ++ x :: later → x.request = .createMap key map →
    (before = [] ∧ x.request = (Record.candidate requested space 0).stored.request) ∨ BehindListing requested space before x
  collided : result = .error (.nameCollision requested.text) ↔
    autoName = false ∧ ∃ later, xs = Registry.taken (Record.candidate requested space 0) :: later
  exhausted : result = .error (.exhausted requested.text retries) ↔
    autoName = true ∧ ∃ later, xs = Registry.taken (Record.candidate requested space 0) :: later ∧
      later.countP isTaken = retries
  failed : EndsAtFailure xs result
  causes : ∀ e, result = .error e → e = .nameCollision requested.text ∨ e = .exhausted requested.text retries ∨
    ∃ cause, e = .registry (.api cause) ∧ ∃ x ∈ xs, Fails x cause
  stopped : ∀ name, result ≠ .error (.registry (.alreadyExists name))
  unwritten : ∀ e, result = .error e → ∀ x ∈ xs, ∀ key, ¬x.Writes key

/-! ## What is read off them -/

theorem endsAtFailure_nil : EndsAtFailure [] result := by
  intro before x later e hsplit
  simp at hsplit

theorem endsAtFailure_cons {y : Exchange} (hy : ∀ e, Fails y e → xs = [] ∧ result = .error (.registry (.api e)))
    (h : EndsAtFailure xs result) : EndsAtFailure (y :: xs) result := by
  intro before x later e hsplit hx
  obtain ⟨-, rfl, rfl⟩ | ⟨rest, -, hrest⟩ := Exchange.split_cons hsplit
  · exact hy e hx
  · exact h rest x later e hrest hx

theorem not_fails_stored (r : Record) (e : ApiError) : ¬Fails r.stored e := not_false

theorem not_fails_taken (r : Record) (e : ApiError) : ¬Fails (Registry.taken r) e := by
  rintro ⟨rfl, hne⟩
  exact hne rfl

theorem not_fails_listed (maps : List (String × ConfigMap)) (e : ApiError) : ¬Fails (listed requested space maps) e := not_false

theorem BehindListing.cons {before : List Exchange} {x : Exchange} (h : BehindListing requested space before x) (y : Exchange) :
    BehindListing requested space (y :: before) x := by
  obtain ⟨earlier, maps, rfl, hx⟩ := h
  exact ⟨y :: earlier, maps, rfl, hx⟩

section Tried

variable {attempts left : Nat}

/-- Each attempt is a listing and perhaps a creation. -/
theorem Tried.length_le (h : Tried requested space attempts left xs result) : xs.length ≤ 2 * left := by
  induction h with
  | exhausted => exact Nat.zero_le _
  | unlisted e | granted maps | refused maps he =>
    simp only [List.length_cons, List.length_nil]
    omega
  | lost maps _ ih =>
    simp only [List.length_cons]
    omega

/-- The creation of an attempt comes behind its listing, and those of later attempts do by themselves. -/
theorem behindListing_attempt {maps : List (String × ConfigMap)} {y x : Exchange} {ys before later : List Exchange}
    {key : ObjectKey} {map : ConfigMap} (hsplit : listed requested space maps :: y :: ys = before ++ x :: later)
    (hx : x.request = .createMap key map) (hy : y.request = (nextCandidate requested space maps).stored.request)
    (hys : ∀ rest, ys = rest ++ x :: later → BehindListing requested space rest x) :
    BehindListing requested space before x := by
  obtain ⟨-, rfl, -⟩ | ⟨rest, rfl, hrest⟩ := Exchange.split_cons hsplit
  · cases hx
  · obtain ⟨rfl, rfl, -⟩ | ⟨rest', rfl, hlater⟩ := Exchange.split_cons hrest
    · exact ⟨[], maps, rfl, hy⟩
    · exact ((hys rest' hlater).cons y).cons _

/-- Every creation of the loop comes right behind a listing. -/
theorem Tried.behindListing (h : Tried requested space attempts left xs result) {before later : List Exchange} {x : Exchange}
    {key : ObjectKey} {map : ConfigMap} (hsplit : xs = before ++ x :: later) (hx : x.request = .createMap key map) :
    BehindListing requested space before x := by
  have hnone : ∀ rest, [] = rest ++ x :: later → BehindListing requested space rest x := fun rest hrest => by
    simp at hrest
  induction h generalizing before with
  | exhausted => exact hnone before hsplit
  | unlisted e =>
    obtain ⟨-, rfl, -⟩ | ⟨rest, rfl, hrest⟩ := Exchange.split_cons hsplit
    · cases hx
    · exact (hnone rest hrest).cons _
  | granted maps => exact behindListing_attempt hsplit hx rfl hnone
  | refused maps he => exact behindListing_attempt hsplit hx rfl hnone
  | lost maps _ ih => exact behindListing_attempt hsplit hx rfl fun rest hrest => ih hrest

/-- The loop is exhausted just when as many names were found taken as there were attempts. -/
theorem Tried.exhausted_iff (h : Tried requested space attempts left xs result) :
    result = .error (.exhausted requested.text attempts) ↔ xs.countP isTaken = left := by
  induction h with
  | exhausted => simp
  | unlisted e => simp [isTaken]
  | granted maps => simp [isTaken, listed, Record.stored]
  | refused maps he => simp [isTaken, listed, he]
  | lost maps _ ih => simp [isTaken, listed, Registry.taken, ih]

theorem Tried.endsAtFailure (h : Tried requested space attempts left xs result) : EndsAtFailure xs result := by
  induction h with
  | exhausted => exact endsAtFailure_nil
  | unlisted e =>
    refine endsAtFailure_cons (fun e' he' => ?_) endsAtFailure_nil
    cases he'
    exact ⟨rfl, rfl⟩
  | granted maps =>
    refine endsAtFailure_cons (fun e he => absurd he (not_fails_listed maps e)) ?_
    exact endsAtFailure_cons (fun e he => absurd he (not_fails_stored _ e)) endsAtFailure_nil
  | refused maps he =>
    refine endsAtFailure_cons (fun e he => absurd he (not_fails_listed maps e)) ?_
    refine endsAtFailure_cons (fun e' he' => ?_) endsAtFailure_nil
    obtain ⟨rfl, -⟩ := he'
    exact ⟨rfl, rfl⟩
  | lost maps _ ih =>
    refine endsAtFailure_cons (fun e he => absurd he (not_fails_listed maps e)) ?_
    exact endsAtFailure_cons (fun e he => absurd he (not_fails_taken _ e)) ih

/-- The loop fails when it is exhausted, or by a failure that it met. -/
theorem Tried.causes (h : Tried requested space attempts left xs result) {e : RegistrationError} (he : result = .error e) :
    e = .exhausted requested.text attempts ∨ ∃ cause, e = .registry (.api cause) ∧ ∃ x ∈ xs, Fails x cause := by
  induction h with
  | exhausted => exact .inl (Except.error.inj he).symm
  | unlisted cause => exact .inr ⟨cause, (Except.error.inj he).symm, _, List.mem_cons_self, rfl⟩
  | granted maps => cases he
  | @refused left maps cause hcause =>
    exact .inr ⟨cause, (Except.error.inj he).symm, _, List.mem_cons_of_mem _ List.mem_cons_self, rfl, hcause⟩
  | lost maps _ ih =>
    rcases ih he with hexhausted | ⟨cause, hcause, x, hx, hfails⟩
    · exact .inl hexhausted
    · exact .inr ⟨cause, hcause, x, List.mem_cons_of_mem _ (List.mem_cons_of_mem _ hx), hfails⟩

end Tried

section Registered

variable {retries : Nat} {autoName : Bool}

/-- Every creation of a registration but the first request comes right behind a listing. -/
theorem Registered.creations (h : Registered retries requested space autoName xs result) {before later : List Exchange}
    {x : Exchange} {key : ObjectKey} {map : ConfigMap} (hsplit : xs = before ++ x :: later)
    (hx : x.request = .createMap key map) :
    (before = [] ∧ x.request = (Record.candidate requested space 0).stored.request) ∨
      BehindListing requested space before x := by
  cases h with
  | granted | refused he | collided =>
    obtain ⟨rfl, rfl, -⟩ | ⟨rest, -, hrest⟩ := Exchange.split_cons hsplit
    · exact .inl ⟨rfl, rfl⟩
    · simp at hrest
  | numbered hauto htried =>
    obtain ⟨rfl, rfl, -⟩ | ⟨rest, rfl, hrest⟩ := Exchange.split_cons hsplit
    · exact .inl ⟨rfl, rfl⟩
    · exact .inr ((htried.behindListing hrest hx).cons _)

/-- What the exchanges of a registration say of its result. -/
theorem Registered.verdict (h : Registered retries requested space autoName xs result) :
    Verdict retries requested space autoName xs result where
  length_le := by
    cases h with
    | granted | refused he | collided => simp
    | numbered hauto htried =>
      have hlength := htried.length_le
      simp only [List.length_cons]
      omega
  creations before x later key map hsplit hx := h.creations hsplit hx
  collided := by
    cases h with
    | granted => simp [Record.stored, Registry.taken]
    | refused he => simp [Registry.taken, he]
    | collided hauto => simp [hauto]
    | numbered hauto htried =>
      rw [hauto]
      refine iff_of_false (fun hresult => ?_) (fun hcollided => Bool.noConfusion hcollided.1)
      obtain heq | ⟨cause, heq, -⟩ := htried.causes hresult <;> cases heq
  exhausted := by
    cases h with
    | granted => simp [Record.stored, Registry.taken]
    | refused he => simp [Registry.taken, he]
    | collided hauto => simp [hauto]
    | numbered hauto htried => simp [hauto, htried.exhausted_iff]
  failed := by
    cases h with
    | granted => exact endsAtFailure_cons (fun e he => absurd he (not_fails_stored _ e)) endsAtFailure_nil
    | refused he =>
      refine endsAtFailure_cons (fun e' he' => ?_) endsAtFailure_nil
      obtain ⟨rfl, -⟩ := he'
      exact ⟨rfl, rfl⟩
    | collided hauto => exact endsAtFailure_cons (fun e he => absurd he (not_fails_taken _ e)) endsAtFailure_nil
    | numbered hauto htried => exact endsAtFailure_cons (fun e he => absurd he (not_fails_taken _ e)) htried.endsAtFailure
  causes e he := by
    cases h with
    | granted => cases he
    | @refused cause hcause =>
      exact .inr (.inr ⟨cause, (Except.error.inj he).symm, _, List.mem_cons_self, rfl, hcause⟩)
    | collided hauto => exact .inl (Except.error.inj he).symm
    | numbered hauto htried =>
      obtain hexhausted | ⟨cause, hcause, x, hx, hfails⟩ := htried.causes he
      · exact .inr (.inl hexhausted)
      · exact .inr (.inr ⟨cause, hcause, x, List.mem_cons_of_mem _ hx, hfails⟩)
  stopped name hresult := by
    cases h with
    | granted => cases hresult
    | refused he => cases hresult
    | collided hauto => cases hresult
    | numbered hauto htried =>
      obtain heq | ⟨cause, heq, -⟩ := htried.causes hresult <;> cases heq
  unwritten e he x hx key := (h.outcome.inVain he x hx).not_writes key

end Registered

end Registration

/-! ## Requests in vain where nobody else is -/

/-- No other client registers names at a server. Requests can fail all the same. -/
structure Server.Unrivalled (s : Server) : Prop where
  races : s.races = []
  racing : s.racing = false

namespace Server.Unrivalled

variable {s s' : Server} (hs : s.Unrivalled)
include hs

/-- A creation fails without an effect, or its key was free and holds the new config map, and all else is as it was. -/
theorem create {key : ObjectKey} {map : ConfigMap} {reply : Except ApiError Unit} (h : s.create key map = (reply, s')) :
    (∃ e, reply = .error e ∧ s'.Unrivalled ∧ s'.held = s.held) ∨
      reply = .ok () ∧ s.held key = none ∧ ∃ v, ∀ k, s'.held k = if k = key then some ⟨map, v⟩ else s.held k := by
  obtain ⟨faults, ⟨status, rfl, rfl⟩ | hserved⟩ := serve_cases h
  · exact .inl ⟨_, rfl, ⟨hs.races, hs.racing⟩, rfl⟩
  · have hraced : { s with faults := faults }.letRaceRun key.space = { s with faults := faults } := by
      unfold letRaceRun
      rw [hs.races]
    dsimp only at hserved
    rw [hraced] at hserved
    split at hserved
    · cases hserved
      exact .inl ⟨_, rfl, ⟨hs.races, hs.racing⟩, rfl⟩
    · rename_i hfree
      rw [contains_iff, Classical.not_not] at hfree
      cases hserved
      exact .inr ⟨rfl, hfree, _, fun k => held_put _ _ _ _⟩

/-- A creation that fails changes nothing that is held, and nobody else does. -/
theorem held_of_create_error {key : ObjectKey} {map : ConfigMap} {e : ApiError} (h : s.create key map = (.error e, s')) :
    s'.Unrivalled ∧ s'.held = s.held := by
  obtain ⟨-, -, hkept⟩ | ⟨hok, -⟩ := hs.create h
  · exact hkept
  · cases hok

/-- Neither does a listing. -/
theorem held_of_list {space label value : String} {reply : Except ApiError (List (String × ConfigMap))}
    (h : s.list space label value = (reply, s')) : s'.Unrivalled ∧ s'.held = s.held := by
  obtain ⟨faults, ⟨status, -, rfl⟩ | hserved⟩ := serve_cases h
  · exact ⟨⟨hs.races, hs.racing⟩, rfl⟩
  · dsimp only at hserved
    rw [hs.racing, if_neg Bool.false_ne_true] at hserved
    cases hserved
    exact ⟨⟨hs.races, rfl⟩, rfl⟩

end Server.Unrivalled

/-- Exchanges in vain take nothing away, and where nobody else registers names they change nothing. -/
theorem World.Path.inVain {w w' : World} (h : w.Path xs w') (hvain : ∀ x ∈ xs, Registration.InVain x) :
    w.Grows w' ∧ (w.server.Unrivalled → w'.held = w.held) := by
  refine ⟨fun key m hm => h.held (fun x hx => (hvain x hx).not_writes key) hm, ?_⟩
  induction h with
  | nil w => exact fun _ => rfl
  | @cons w w₁ w' x xs ha _ ih =>
    intro hw
    have hstep : w₁.server.Unrivalled ∧ w₁.held = w.held := by
      have hx := hvain x List.mem_cons_self
      unfold Registration.InVain at hx
      split at hx
      · rename_i space label value reply
        change w.contact (·.list space label value) = (reply, w₁) at ha
        obtain ⟨-, rfl⟩ | hlist := contact_cases ha
        · exact ⟨hw, rfl⟩
        · exact hw.held_of_list hlist
      · rename_i key map e
        change w.contact (·.create key map) = (.error e, w₁) at ha
        obtain ⟨-, rfl⟩ | hcreate := contact_cases ha
        · exact ⟨hw, rfl⟩
        · exact hw.held_of_create_error hcreate
      · exact hx.elim
    rw [ih (fun y hy => hvain y (List.mem_cons_of_mem x hy)) hstep.1, hstep.2]

open Registration

/-- Whatever is answered to a registration, by the server and by other clients, it ends with the right verdict. One that fails takes
nothing away, and leaves the config maps as they were where nobody else registers names. -/
theorem registration_verdict (retries : Nat) (autoName : Bool)
    (h : (register retries requested space autoName).Yields xs result) :
    Verdict retries requested space autoName xs result ∧
      ∀ e, result = .error e → ∀ w w' : World, w.Path xs w' → w.Grows w' ∧ (w.server.Unrivalled → w'.held = w.held) := by
  have hregistered := register_registered h
  exact ⟨hregistered.verdict, fun e he w w' hp => hp.inVain (hregistered.outcome.inVain he)⟩

/-- A world in which the name `job` is taken, and others take the next ones of its family as soon as they are listed. -/
def crowded : World :=
  { server := { maps := .ofList [(⟨"team-a", "job"⟩, ⟨Record.toConfigMap { name := "job", space := "team-a", familyName := "job" }, 1⟩)]
                racing := true } }

/-- Two attempts at a numbered name are in vain there: five requests are sent, three names were taken. -/
theorem registration_verdict_of_crowded :
    let program := register 2 .job "team-a" true
    (program.run crowded).1 = .error (.exhausted "job" 2) ∧ (program.exchanges crowded).length = 5 ∧
      (program.exchanges crowded).countP isTaken = 3 ∧
      Verdict 2 .job "team-a" true (program.exchanges crowded) (program.run crowded).1 := by
  intro program
  refine ⟨?_, ?_, ?_, (registration_verdict 2 true (program.run_yields crowded)).1⟩
  · rfl
  · rfl
  · rfl

end TrainingJobs

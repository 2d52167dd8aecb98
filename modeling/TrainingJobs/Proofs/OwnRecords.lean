import TrainingJobs.Proofs.Crowd
import TrainingJobs.Proofs.Orphans

/-!
# Records of their own

Submissions and deletions take turns. A submission registers a name, and later it sets the texts of the record of the name and,
where the launch fails, takes that record away. It should do so only with the record that it has registered itself. Submissions
alone never get in each other's way: a record that is there keeps all others from registering its name, and who has released a
name has done with it. But a record is known by its name only. Once a deletion has taken it away, the submission goes on with
whatever is registered next (`own_records_iff`, `own_records_of_registered_again_false`).
-/

namespace TrainingJobs

open Lifecycle

/-! ## Commands at the same time -/

/-- What a client does to the record of a name. -/
inductive RecordAct
  | registers (key : ObjectKey)
  | populates (key : ObjectKey)
  | removes (key : ObjectKey)

/-- What an exchange does to a record, if it does something. What is created is a record when it carries the mark. -/
def Exchange.act? : Exchange → Option RecordAct
  | ⟨.createMap key map, .ok _⟩ => if map.Managed then some (.registers key) else none
  | ⟨.patchMap key _, .ok _⟩ => some (.populates key)
  | ⟨.deleteMap key, .ok _⟩ => some (.removes key)
  | _ => none

/-- What a command does. -/
def Order.program : Order → Program (Except LifecycleError Unit)
  | .submit settings request space =>
    (Lifecycle.submit settings request space).andThen fun result => .done (result.map fun _ => ())
  | .delete space name => Lifecycle.delete space name

/-- Commands in a world. -/
def commands (w : World) (orders : List Order) : Crowd (Except LifecycleError Unit) := ⟨w, orders.map Order.program⟩

/-- A client is a submission. -/
def Submits (orders : List Order) (i : Nat) : Prop :=
  ∃ settings request space, orders[i]? = some (.submit settings request space)

/-- A client is a deletion. -/
def Deletes (orders : List Order) (i : Nat) : Prop := ∃ space name, orders[i]? = some (.delete space name)

namespace Crowd

variable {α : Type}

/-- A crowd after so many turns. -/
def after (c : Crowd α) (turns : List Turn) (n : Nat) : Crowd α := c.run (turns.take n)

/-- At a turn, told by its number, a client does something to a record. -/
def Does (c : Crowd α) (turns : List Turn) (n i : Nat) (a : RecordAct) : Prop :=
  ∃ turn x, turns[n]? = some turn ∧ (c.after turns n).exchange? i turn = some x ∧ x.act? = some a

/-- At a turn a client sets texts of what is held under a key, or takes it away. -/
def Touches (c : Crowd α) (turns : List Turn) (n i : Nat) (key : ObjectKey) : Prop :=
  c.Does turns n i (.populates key) ∨ c.Does turns n i (.removes key)

/-- Something is held under a key from behind a turn to another one, without a break. -/
def Lasts (c : Crowd α) (turns : List Turn) (n m : Nat) (key : ObjectKey) : Prop :=
  ∀ k, n < k → k ≤ m → (c.after turns k).world.held key ≠ none

end Crowd

/-- Each submission sets the texts of a record, and takes one away, only when it has registered the very same before. -/
def OwnRecordsOnly (w : World) (orders : List Order) (turns : List Turn) : Prop :=
  ∀ i, Submits orders i → ∀ m key, (commands w orders).Touches turns m i key →
    ∃ n, n < m ∧ (commands w orders).Does turns n i (.registers key) ∧ (commands w orders).Lasts turns n m key

/-- At a turn a deletion, or somebody else, takes away what is held under a key. -/
def TakenAway (w : World) (orders : List Order) (turns : List Turn) (n : Nat) (key : ObjectKey) : Prop :=
  turns[n]? = some (.other (.remove key)) ∨ ∃ j, Deletes orders j ∧ (commands w orders).Does turns n j (.removes key)

/-! ## What a submission does to records -/

/-- The key of the record that something is done to. -/
@[simp] def RecordAct.key : RecordAct → ObjectKey
  | .registers key => key
  | .populates key => key
  | .removes key => key

/-- The place of what is done among all that is done to a record. -/
@[simp] def RecordAct.rank : RecordAct → Nat
  | .registers _ => 0
  | .populates _ => 1
  | .removes _ => 2

/-- What a submission does to records: all of it to one, which it has registered first, each thing once at most and in its order. -/
structure Orderly (key : ObjectKey) (acts : List RecordAct) : Prop where
  ranks : acts.Pairwise fun a b => a.rank < b.rank
  keys : ∀ a ∈ acts, a.key = key
  registered : acts ≠ [] → .registers key ∈ acts

namespace Orderly

variable {key k : ObjectKey} {acts later : List RecordAct} {a : RecordAct}

/-- What a submission has done at any time is in order. -/
theorem of_append (h : Orderly key (acts ++ later)) : Orderly key acts := by
  obtain ⟨hacts, -, hbefore⟩ := List.pairwise_append.1 h.ranks
  refine ⟨hacts, fun a ha => h.keys a (List.mem_append_left _ ha), fun hne => ?_⟩
  have hmem := h.registered fun hnil => hne (List.append_eq_nil_iff.1 hnil).1
  rcases List.mem_append.1 hmem with hmem | hmem
  · exact hmem
  · -- Nothing comes before a registration.
    obtain ⟨a, ha⟩ := List.exists_mem_of_ne_nil acts hne
    exact absurd (hbefore a ha _ hmem) (Nat.not_lt_zero _)

/-- Behind a removal a submission does nothing more to records. -/
theorem eq_nil_of_removes (h : Orderly key (acts ++ .removes k :: later)) : later = [] := by
  obtain ⟨-, hlater, -⟩ := List.pairwise_append.1 h.ranks
  refine List.eq_nil_iff_forall_not_mem.2 fun a ha => ?_
  have hlt : 2 < a.rank := (List.pairwise_cons.1 hlater).1 a ha
  cases a <;> simp at hlt

/-- What a submission touches it has registered. -/
theorem registers_mem (h : Orderly key (acts ++ [a])) (ha : 0 < a.rank) : .registers a.key ∈ acts := by
  have hmem := h.registered (List.concat_ne_nil a acts)
  rw [← h.keys a (List.mem_append_right _ List.mem_cons_self)] at hmem
  rcases List.mem_append.1 hmem with hmem | hmem
  · exact hmem
  · rw [← List.mem_singleton.1 hmem] at ha
    exact absurd ha (Nat.not_lt_zero _)

/-- A submission registers one name. -/
theorem registers_not_mem (h : Orderly key (acts ++ .registers k :: later)) (k' : ObjectKey) :
    .registers k' ∉ later := by
  obtain ⟨-, hlater, -⟩ := List.pairwise_append.1 h.ranks
  intro hmem
  exact Nat.not_lt_zero _ ((List.pairwise_cons.1 hlater).1 _ hmem)

end Orderly

namespace OwnRecordsAux

/-! ### The acts of the parts of a submission -/

section Acts

variable {xs : List Exchange} {space name : String}

theorem filterMap_act?_of_inVain (h : ∀ x ∈ xs, Registration.InVain x) : xs.filterMap Exchange.act? = [] := by
  refine List.filterMap_eq_nil_iff.2 fun x hx => ?_
  have hvain := h x hx
  unfold Registration.InVain at hvain
  split at hvain
  · rfl
  · rfl
  · exact hvain.elim

/-- Storing a record registers its name. -/
theorem act?_stored (r : Record) : r.stored.act? = some (.registers r.key) := if_pos r.managed_toConfigMap

/-- The counter is no record. -/
theorem filterMap_act?_counted (h : JobIndex.Counted space xs) : xs.filterMap Exchange.act? = [] := by
  refine List.filterMap_eq_nil_iff.2 fun x hx => ?_
  obtain ⟨reply, rfl⟩ | ⟨reply, rfl⟩ | ⟨version, map, reply, rfl⟩ := h.cases hx
  · rfl
  · cases reply with
    | error e => rfl
    | ok u =>
      have hunmarked : ¬(JobIndex.withValue {} 1).Managed := by decide
      simp only [Exchange.act?, if_neg hunmarked]
  · rfl

theorem filterMap_act?_noted (h : Noted xs) : xs.filterMap Exchange.act? = [] := by
  obtain rfl | ⟨text, rfl⟩ := h <;> rfl

/-- A release removes the record, or nothing. -/
theorem filterMap_act?_released (h : Released space name xs) :
    xs.filterMap Exchange.act? = [] ∨ xs.filterMap Exchange.act? = [.removes ⟨space, name⟩] := by
  cases h with
  | gone => exact .inr rfl
  | kept e => exact .inl rfl

/-- A registration may be all, and a removal may come next. -/
theorem orderly_registered {acts : List RecordAct} {key : ObjectKey} (h : acts = [] ∨ acts = [.removes key]) :
    Orderly key (.registers key :: acts) := by
  rcases h with rfl | rfl
  · exact ⟨by simp, by simp, by simp⟩
  · exact ⟨by simp, by simp, by simp⟩

/-- A population may come between a registration and a removal. -/
theorem orderly_populated {acts : List RecordAct} {key : ObjectKey} (h : acts = [] ∨ acts = [.removes key]) :
    Orderly key (.registers key :: .populates key :: acts) := by
  rcases h with rfl | rfl
  · exact ⟨by simp, by simp, by simp⟩
  · exact ⟨by simp, by simp, by simp⟩

/-- What a launch does to the record of its name is in order. -/
theorem orderly_launched {chart values : String} {identity : JobIdentity} {result : Except LifecycleError Submission}
    (h : Launched chart identity space values xs result) :
    Orderly ⟨space, identity.resolved⟩ (.registers ⟨space, identity.resolved⟩ :: xs.filterMap Exchange.act?) := by
  cases h with
  | unrendered hreleased =>
    rw [List.filterMap_cons_none rfl]
    exact orderly_registered (filterMap_act?_released hreleased)
  | unstored hreleased =>
    rw [List.filterMap_cons_none rfl, List.filterMap_cons_none rfl]
    exact orderly_registered (filterMap_act?_released hreleased)
  | @unapplied manifest e outcome notes zs hnotes hreleased =>
    have hacts : (applied space manifest (.error e) :: uninstalled space manifest outcome :: (notes ++ zs)).filterMap
        Exchange.act? = zs.filterMap Exchange.act? := by
      rw [List.filterMap_cons_none rfl, List.filterMap_cons_none rfl, List.filterMap_append, filterMap_act?_noted hnotes,
        List.nil_append]
    rw [List.filterMap_cons_none rfl, List.filterMap_cons, hacts]
    exact orderly_populated (filterMap_act?_released hreleased)
  | started => exact orderly_populated (.inl rfl)

/-- What a submission does to records is in order. -/
theorem orderly_submitted {settings : LifecycleSettings} {request : SubmitRequest}
    {result : Except LifecycleError Submission} (h : Submitted settings request space xs result) :
    ∃ key, Orderly key (xs.filterMap Exchange.act?) := by
  cases h with
  | refused hvalues => exact ⟨default, ⟨by simp, by simp, by simp⟩⟩
  | unregistered hvain =>
    rw [filterMap_act?_of_inVain hvain]
    exact ⟨default, ⟨by simp, by simp, by simp⟩⟩
  | halted hvalues hvain hcounted hhalted =>
    rw [List.filterMap_append, filterMap_act?_of_inVain hvain, List.filterMap_cons_some (act?_stored _),
      filterMap_act?_counted hcounted]
    exact ⟨_, orderly_registered (.inl rfl)⟩
  | launched number hvalues hvain hcounted hread htext hlaunched =>
    rw [List.filterMap_append, filterMap_act?_of_inVain hvain, List.filterMap_cons_some (act?_stored _),
      List.filterMap_append, filterMap_act?_counted hcounted]
    exact ⟨_, orderly_launched hlaunched⟩

end Acts

/-! ### The acts of a client in a crowd -/

section History

variable {α : Type} {c : Crowd α} {turns : List Turn} {n m i : Nat} {a : RecordAct} {key : ObjectKey}

/-- What a client has done to records before some turn. -/
def acts (c : Crowd α) (turns : List Turn) (n i : Nat) : List RecordAct :=
  (c.history i (turns.take n)).filterMap Exchange.act?

theorem after_succ {turn : Turn} (ht : turns[n]? = some turn) : c.after turns (n + 1) = (c.after turns n).step turn := by
  rw [Crowd.after, Crowd.after, List.take_add_one, ht, Crowd.run_append]
  rfl

theorem after_succ_of_none (ht : turns[n]? = none) : c.after turns (n + 1) = c.after turns n := by
  rw [Crowd.after, Crowd.after, List.take_add_one, ht, Option.toList_none, List.append_nil]

theorem history_succ {turn : Turn} (ht : turns[n]? = some turn) :
    c.history i (turns.take (n + 1)) = c.history i (turns.take n) ++ ((c.after turns n).exchange? i turn).toList := by
  rw [List.take_add_one, ht, Crowd.history_append, Option.toList_some, Crowd.history, Crowd.history, List.append_nil]
  rfl

/-- What a client does at a turn it has done last behind it. -/
theorem acts_succ (h : c.Does turns n i a) : acts c turns (n + 1) i = acts c turns n i ++ [a] := by
  obtain ⟨turn, x, ht, hx, ha⟩ := h
  rw [acts, history_succ ht, hx, List.filterMap_append, Option.toList_some, List.filterMap_cons_some ha]
  rfl

/-- What a client has done stays done. -/
theorem exists_acts (c : Crowd α) (turns : List Turn) (i : Nat) (h : n ≤ m) :
    ∃ later, acts c turns m i = acts c turns n i ++ later := by
  obtain ⟨rest, hrest⟩ := List.take_prefix_take_left h (l := turns)
  rw [acts, ← hrest, Crowd.history_append, List.filterMap_append]
  exact ⟨_, rfl⟩

/-- What a client has done it did at some turn. -/
theorem exists_does (h : a ∈ acts c turns m i) : ∃ n, n < m ∧ c.Does turns n i a := by
  induction m with
  | zero => cases h
  | succ m ih =>
    cases ht : turns[m]? with
    | none =>
      rw [acts, List.take_add_one, ht, Option.toList_none, List.append_nil] at h
      obtain ⟨n, hn, hdoes⟩ := ih h
      exact ⟨n, Nat.lt_succ_of_lt hn, hdoes⟩
    | some turn =>
      rw [acts, history_succ ht, List.filterMap_append, List.mem_append] at h
      rcases h with h | h
      · obtain ⟨n, hn, hdoes⟩ := ih h
        exact ⟨n, Nat.lt_succ_of_lt hn, hdoes⟩
      · obtain ⟨x, hx, ha⟩ := List.mem_filterMap.1 h
        exact ⟨m, Nat.lt_succ_self m, turn, x, ht, Option.mem_toList.1 hx, ha⟩

/-- Only one client does something at a turn. -/
theorem client_unique {j : Nat} {b : RecordAct} (h : c.Does turns n i a) (h' : c.Does turns n j b) : i = j := by
  obtain ⟨turn, x, ht, hx, -⟩ := h
  obtain ⟨turn', x', ht', hx', -⟩ := h'
  cases ht.symm.trans ht'
  obtain ⟨hnone, -⟩ | ⟨-, -, -, hturn, -⟩ := (c.after turns n).exchange?_cases i turn
  · cases hnone.symm.trans hx
  · obtain ⟨hnone, -⟩ | ⟨-, -, -, hturn', -⟩ := (c.after turns n).exchange?_cases j turn
    · cases hnone.symm.trans hx'
    · cases hturn.symm.trans hturn'
      rfl

/-! ### What acts do to the world -/

/-- What a client does is done by an exchange with the world. -/
theorem answer_of_does (h : c.Does turns n i a) :
    ∃ x : Exchange, x.act? = some a ∧ (c.after turns n).world.answer x.request = (x.reply, (c.after turns (n + 1)).world) := by
  obtain ⟨turn, x, ht, hx, ha⟩ := h
  obtain ⟨hnone, -⟩ | ⟨y, next, hy, -, -, hanswer, -⟩ := (c.after turns n).exchange?_cases i turn
  · cases hnone.symm.trans hx
  · cases hy.symm.trans hx
    rw [after_succ ht]
    exact ⟨x, ha, hanswer⟩

/-- A name that is registered was free and is taken then. -/
theorem held_of_registers (h : c.Does turns n i (.registers key)) :
    (c.after turns n).world.held key = none ∧ (c.after turns (n + 1)).world.held key ≠ none := by
  obtain ⟨x, ha, hanswer⟩ := answer_of_does h
  unfold Exchange.act? at ha
  split at ha
  · split at ha
    · cases ha
      obtain ⟨-, ⟨e, he⟩ | ⟨-, hfree, version, hheld⟩⟩ := World.createMap_cases hanswer
      · cases he
      · refine ⟨hfree, fun hnone => ?_⟩
        exact Option.some_ne_none _ (hheld.symm.trans hnone)
    · cases ha
  · cases ha
  · cases ha
  · cases ha

/-- A name whose record is removed is free then. -/
theorem free_of_removes (h : c.Does turns n i (.removes key)) : (c.after turns (n + 1)).world.held key = none := by
  obtain ⟨x, ha, hanswer⟩ := answer_of_does h
  unfold Exchange.act? at ha
  split at ha
  · split at ha <;> cases ha
  · cases ha
  · cases ha
    obtain ⟨e, he, -⟩ | ⟨-, -, hheld⟩ := World.deleteMap_cases hanswer
    · cases he
    · rw [hheld, if_pos rfl]
  · cases ha

/-- A name becomes free at a turn at which somebody removes its record. -/
theorem freed_cases (hheld : (c.after turns n).world.held key ≠ none) (hfree : (c.after turns (n + 1)).world.held key = none) :
    turns[n]? = some (.other (.remove key)) ∨ ∃ j, c.Does turns n j (.removes key) := by
  cases ht : turns[n]? with
  | none =>
    rw [after_succ_of_none ht] at hfree
    exact absurd hfree hheld
  | some turn =>
    rw [after_succ ht] at hfree
    obtain hs | ⟨j, r, next, rfl, hj, hs⟩ | ⟨deed, rfl, hs⟩ := (c.after turns n).step_cases turn
    · rw [hs] at hfree
      exact absurd hfree hheld
    · rw [hs] at hfree
      have hx : (⟨r, ((c.after turns n).world.answer r).1⟩ : Exchange) = ⟨.deleteMap key, .ok ()⟩ :=
        World.eq_deleteMap_of_freed rfl hheld hfree
      refine .inr ⟨j, .client j, ⟨.deleteMap key, .ok ()⟩, ht, ?_, rfl⟩
      rw [Crowd.exchange?, if_pos rfl, hj, ← hx]
      rfl
    · rw [hs] at hfree
      refine .inl ?_
      by_cases hdeed : deed = .remove key
      · rw [hdeed]
      · exact absurd hfree (Server.held_undergo hdeed hheld)

/-- What is held behind a turn lasts to a later one, or there is a first turn in between behind which it is gone. -/
theorem lasts_or_freed (hheld : (c.after turns (n + 1)).world.held key ≠ none) (h : n < m) :
    c.Lasts turns n m key ∨ ∃ k, n < k ∧ k < m ∧ c.Lasts turns n k key ∧ (c.after turns (k + 1)).world.held key = none := by
  induction h with
  | refl =>
    refine .inl fun k hk hkm => ?_
    have hkn : k = n + 1 := by omega
    rw [hkn]
    exact hheld
  | @step m hnm ih =>
    obtain hlasts | ⟨k, hnk, hkm, hlasts, hfree⟩ := ih
    · by_cases hfree : (c.after turns (m + 1)).world.held key = none
      · exact .inr ⟨m, hnm, Nat.lt_succ_self m, hlasts, hfree⟩
      · refine .inl fun k hnk hkm => ?_
        rcases Nat.lt_or_eq_of_le hkm with hlt | rfl
        · exact hlasts k hnk (Nat.lt_succ_iff.1 hlt)
        · exact hfree
    · exact .inr ⟨k, hnk, Nat.lt_succ_of_lt hkm, hlasts, hfree⟩

end History

/-! ### Submissions among commands -/

section Submissions

variable {w : World} {orders : List Order} {turns : List Turn} {n m k i : Nat} {a : RecordAct} {key key' : ObjectKey}

/-- What a submission does to records is in order at any time, whoever else takes turns. -/
theorem orderly_acts (hi : Submits orders i) (turns : List Turn) (n : Nat) :
    ∃ key, Orderly key (acts (commands w orders) turns n i) := by
  obtain ⟨settings, request, space, ho⟩ := hi
  have hclient : (commands w orders).clients[i]? = some (Order.submit settings request space).program := by
    rw [commands, List.getElem?_map, ho, Option.map_some]
  have hlt : i < ((commands w orders).run (turns.take n)).clients.length := by
    rw [Crowd.length_clients_run]
    exact (List.getElem?_eq_some_iff.1 hclient).1
  obtain ⟨p, hp, hreach⟩ := Crowd.reaches_history (List.getElem?_eq_getElem hlt)
  cases hclient.symm.trans hp
  -- Whatever replies are still to come, the exchanges so far begin those of a whole submission.
  obtain ⟨zs, result, hend⟩ := Program.exists_yields (((commands w orders).run (turns.take n)).clients[i])
  obtain ⟨ys, submission, us, hsubmit, hdone, heq⟩ := Program.andThen_yields_iff.1 (hreach.trans hend)
  obtain ⟨rfl, -⟩ := Program.done_yields_iff.1 hdone
  obtain ⟨key, horderly⟩ := orderly_submitted (submit_yields hsubmit)
  rw [List.append_nil] at heq
  rw [← heq, List.filterMap_append] at horderly
  exact ⟨key, horderly.of_append⟩

/-- Who does something is a submission or a deletion. -/
theorem submits_or_deletes (h : (commands w orders).Does turns n i a) : Submits orders i ∨ Deletes orders i := by
  obtain ⟨turn, x, -, hx, -⟩ := h
  obtain ⟨hnone, -⟩ | ⟨y, next, -, -, hsend, -⟩ := ((commands w orders).after turns n).exchange?_cases i turn
  · cases hnone.symm.trans hx
  · obtain ⟨p, hp, -⟩ := Crowd.reaches_history hsend
    rw [commands, List.getElem?_map] at hp
    obtain ⟨o, ho, -⟩ := Option.map_eq_some_iff.1 hp
    cases o with
    | submit settings request space => exact .inl ⟨settings, request, space, ho⟩
    | delete space name => exact .inr ⟨space, name, ho⟩

/-- What a submission touches it has registered before. -/
theorem exists_registers (hi : Submits orders i) (h : (commands w orders).Touches turns m i key) :
    ∃ n, n < m ∧ (commands w orders).Does turns n i (.registers key) := by
  obtain ⟨key', horderly⟩ := orderly_acts (w := w) hi turns (m + 1)
  rcases h with h | h
  · rw [acts_succ h] at horderly
    exact exists_does (horderly.registers_mem Nat.one_pos)
  · rw [acts_succ h] at horderly
    exact exists_does (horderly.registers_mem Nat.two_pos)

/-- A submission does nothing more to records once it has removed one. -/
theorem not_does_of_removes (hi : Submits orders i) (hk : (commands w orders).Does turns k i (.removes key)) (hkm : k < m) :
    ¬(commands w orders).Does turns m i a := by
  intro hm
  obtain ⟨key', horderly⟩ := orderly_acts (w := w) hi turns (m + 1)
  obtain ⟨later, hlater⟩ := exists_acts (commands w orders) turns i hkm
  rw [acts_succ hm, hlater, acts_succ hk, List.append_assoc, List.append_assoc, List.singleton_append] at horderly
  exact List.concat_ne_nil a later horderly.eq_nil_of_removes

/-- A submission registers no name but its first. -/
theorem not_registers_of_registers (hi : Submits orders i) (hn : (commands w orders).Does turns n i (.registers key))
    (hnm : n < m) : ¬(commands w orders).Does turns m i (.registers key') := by
  intro hm
  obtain ⟨key'', horderly⟩ := orderly_acts (w := w) hi turns (m + 1)
  obtain ⟨later, hlater⟩ := exists_acts (commands w orders) turns i hnm
  rw [acts_succ hm, hlater, acts_succ hn, List.append_assoc, List.append_assoc, List.singleton_append] at horderly
  exact horderly.registers_not_mem key' (List.mem_append_right _ List.mem_cons_self)

/-- A submission registers at one turn only. -/
theorem registers_unique (hi : Submits orders i) (hn : (commands w orders).Does turns n i (.registers key))
    (hm : (commands w orders).Does turns m i (.registers key')) : n = m := by
  rcases Nat.lt_trichotomy n m with hlt | heq | hlt
  · exact absurd hm (not_registers_of_registers hi hn hlt)
  · exact heq
  · exact absurd hn (not_registers_of_registers hi hm hlt)

/-- Behind a turn at which a record is taken away nothing is held under its key. -/
theorem free_of_takenAway (h : TakenAway w orders turns k key) :
    ((commands w orders).after turns (k + 1)).world.held key = none := by
  rcases h with h | ⟨j, -, h⟩
  · rw [after_succ h]
    have hgone := Server.held_erase ((commands w orders).after turns k).world.server key key
    rw [if_pos rfl] at hgone
    exact hgone
  · exact free_of_removes h

/-- A record that is there keeps others from registering its name: what two clients have registered without a break is registered
once. -/
theorem registers_eq_of_lasts {n' j : Nat} (hn : (commands w orders).Does turns n i (.registers key))
    (hn' : (commands w orders).Does turns n' j (.registers key)) (hlasts : (commands w orders).Lasts turns n k key)
    (hlasts' : (commands w orders).Lasts turns n' k key) (hnk : n < k) (hnk' : n' < k) : n = n' := by
  rcases Nat.lt_trichotomy n n' with hlt | heq | hlt
  · exact absurd (held_of_registers hn').1 (hlasts n' hlt (Nat.le_of_lt hnk'))
  · exact heq
  · exact absurd (held_of_registers hn).1 (hlasts' n hlt (Nat.le_of_lt hnk))

/-- As long as nobody takes records away between their registration and what is done with them, submissions touch their own
records only. The induction is on the turn at which a record is touched. -/
theorem ownRecords_of_not_takenAway
    (h : ∀ i, Submits orders i → ∀ n m key, n < m → (commands w orders).Does turns n i (.registers key) →
      (commands w orders).Touches turns m i key → ∀ k, n < k → k < m → ¬TakenAway w orders turns k key) :
    OwnRecordsOnly w orders turns := by
  intro i hi m
  induction m using Nat.strongRecOn generalizing i with
  | ind m ih =>
    intro key htouches
    obtain ⟨n, hnm, hregisters⟩ := exists_registers hi htouches
    refine ⟨n, hnm, hregisters, ?_⟩
    obtain hlasts | ⟨k, hnk, hkm, hlasts, hfree⟩ := lasts_or_freed (held_of_registers hregisters).2 hnm
    · exact hlasts
    · exfalso
      have hnot := h i hi n m key hnm hregisters htouches k hnk hkm
      obtain hother | ⟨j, hremoves⟩ := freed_cases (hlasts k hnk (Nat.le_refl k)) hfree
      · exact hnot (.inl hother)
      · rcases submits_or_deletes hremoves with hj | hj
        · -- Another submission has released its own record, which is the same one, so it is the same submission.
          obtain ⟨n', hnk', hregisters', hlasts'⟩ := ih k hkm j hj key (.inr hremoves)
          have hnn : n = n' := registers_eq_of_lasts hregisters hregisters' hlasts hlasts' hnk hnk'
          have hij : i = j := client_unique hregisters (hnn ▸ hregisters')
          subst hij
          rcases htouches with htouches | htouches
          · exact not_does_of_removes hi hremoves hkm htouches
          · exact not_does_of_removes hi hremoves hkm htouches
        · exact hnot (.inr ⟨j, hj, hremoves⟩)

end Submissions

end OwnRecordsAux

open OwnRecordsAux

/-- Whoever takes a turn when: each submission only sets the texts of, and takes away, what lies under the name that it has
registered before. And all of it is the very record that it has registered, just when no deletion and nobody else takes such a
record away between its registration and what the submission does with it. -/
theorem own_records_iff (w : World) (orders : List Order) (turns : List Turn) :
    (∀ i, Submits orders i → ∀ m key, (commands w orders).Touches turns m i key →
        ∃ n, n < m ∧ (commands w orders).Does turns n i (.registers key)) ∧
      (OwnRecordsOnly w orders turns ↔
        ∀ i, Submits orders i → ∀ n m key, n < m → (commands w orders).Does turns n i (.registers key) →
          (commands w orders).Touches turns m i key → ∀ k, n < k → k < m → ¬TakenAway w orders turns k key) := by
  refine ⟨fun i hi m key htouches => exists_registers hi htouches, fun h => ?_, ownRecords_of_not_takenAway⟩
  intro i hi n m key hnm hregisters htouches k hnk hkm htaken
  obtain ⟨n', -, hregisters', hlasts⟩ := h i hi m key htouches
  have hnn : n' = n := registers_unique hi hregisters' hregisters
  subst hnn
  exact hlasts (k + 1) (Nat.lt_succ_of_lt hnk) hkm (free_of_takenAway htaken)

/-! ## A name that is registered again -/

/-- Somebody submits a job, somebody deletes it, and somebody submits another one of the same name. -/
def twiceSubmitted : List Order :=
  [.submit {} plainRequest "team-a", .delete "team-a" "job", .submit {} plainRequest "team-a"]

/-- The first submission has registered its name when the deletion takes the record away. The second submission registers the
name again, and the first one goes on. -/
def overtaken : List Turn :=
  [.client 0, .client 1, .client 1, .client 1, .client 2, .client 0, .client 0, .client 0, .client 0]

/-- The first submission writes its manifest into the record of the second one. -/
theorem own_records_of_registered_again_false :
    (commands {} twiceSubmitted).Does overtaken 0 0 (.registers ⟨"team-a", "job"⟩) ∧
      (commands {} twiceSubmitted).Does overtaken 3 1 (.removes ⟨"team-a", "job"⟩) ∧
      (commands {} twiceSubmitted).Does overtaken 4 2 (.registers ⟨"team-a", "job"⟩) ∧
      (commands {} twiceSubmitted).Does overtaken 8 0 (.populates ⟨"team-a", "job"⟩) ∧
      ¬OwnRecordsOnly {} twiceSubmitted overtaken := by
  have hfirst : (commands {} twiceSubmitted).Does overtaken 0 0 (.registers ⟨"team-a", "job"⟩) := ⟨_, _, rfl, rfl, rfl⟩
  have hremoves : (commands {} twiceSubmitted).Does overtaken 3 1 (.removes ⟨"team-a", "job"⟩) := ⟨_, _, rfl, rfl, rfl⟩
  have hsecond : (commands {} twiceSubmitted).Does overtaken 4 2 (.registers ⟨"team-a", "job"⟩) := ⟨_, _, rfl, rfl, rfl⟩
  have hpopulates : (commands {} twiceSubmitted).Does overtaken 8 0 (.populates ⟨"team-a", "job"⟩) := ⟨_, _, rfl, rfl, rfl⟩
  refine ⟨hfirst, hremoves, hsecond, hpopulates, fun h => ?_⟩
  have hi : Submits twiceSubmitted 0 := ⟨_, _, _, rfl⟩
  obtain ⟨n, -, hregisters, hlasts⟩ := h 0 hi 8 _ (.inl hpopulates)
  have hn : n = 0 := registers_unique hi hregisters hfirst
  subst hn
  exact hlasts 4 (by decide) (by decide) (free_of_removes hremoves)

end TrainingJobs

import TrainingJobs.Proofs.Paths

/-!
# Clients that take turns

A `Crowd` is a world with programs that are run in it at the same time. At a turn one of them sends its next request and gets
the reply, or somebody else does something to the config maps (`Deed`). A list of turns is any interleaving at all.
-/

namespace TrainingJobs

/-- What somebody else does to the config maps: puts one under a key that is free, gives another content to one that is there,
or takes one away. -/
inductive Deed
  | create (key : ObjectKey) (map : ConfigMap)
  | change (key : ObjectKey) (map : ConfigMap)
  | remove (key : ObjectKey)

/-- The key that a deed is about. -/
def Deed.key : Deed → ObjectKey
  | .create key _ => key
  | .change key _ => key
  | .remove key => key

/-- A server after a deed. -/
def Server.undergo (s : Server) : Deed → Server
  | .create key map => s.putNew key map
  | .change key map => if s.maps.contains key then s.put key map else s
  | .remove key => { s with maps := s.maps.erase key }

/-- A world, and what each client still has to do in it. -/
structure Crowd (α : Type) where
  world : World
  clients : List (Program α)

/-- What happens next: a client goes on, or somebody else does something. -/
inductive Turn
  | client (i : Nat)
  | other (deed : Deed)

/-- The exchange that a program has next in a world. -/
def Program.exchange? {α : Type} : Program α → World → Option Exchange
  | .done _, _ => none
  | .send r _, w => some ⟨r, (w.answer r).1⟩

/-- The result of a program that is done. -/
def Program.result? {α : Type} : Program α → Option α
  | .done a => some a
  | .send _ _ => none

namespace Crowd

variable {α : Type}

/-- A crowd after a turn. A client that is done, or that there is not, does nothing. -/
def step (c : Crowd α) : Turn → Crowd α
  | .client i =>
    match c.clients[i]? with
    | some (.send r next) => ⟨(c.world.answer r).2, c.clients.set i (next (c.world.answer r).1)⟩
    | _ => c
  | .other deed => { c with world := { c.world with server := c.world.server.undergo deed } }

/-- A crowd after some turns. -/
def run (c : Crowd α) (turns : List Turn) : Crowd α := turns.foldl step c

/-- The result of a client that is done. -/
def result? (c : Crowd α) (i : Nat) : Option α := c.clients[i]?.bind Program.result?

/-- At a turn a client comes to its end with a result. -/
def Returns (c : Crowd α) (turn : Turn) (i : Nat) (a : α) : Prop := c.result? i = none ∧ (c.step turn).result? i = some a

theorem run_append (c : Crowd α) (turns turns' : List Turn) : c.run (turns ++ turns') = (c.run turns).run turns' :=
  List.foldl_append

/-- A client goes on at its own turns only, by the reply of the world to its request. -/
theorem step_cases (c : Crowd α) (turn : Turn) :
    (c.step turn = c) ∨
      (∃ i r next, turn = .client i ∧ c.clients[i]? = some (.send r next) ∧
        c.step turn = ⟨(c.world.answer r).2, c.clients.set i (next (c.world.answer r).1)⟩) ∨
      ∃ deed, turn = .other deed ∧ c.step turn = { c with world := { c.world with server := c.world.server.undergo deed } } := by
  cases turn with
  | client i =>
    simp only [step]
    split
    · rename_i r next hi
      exact .inr (.inl ⟨i, r, next, rfl, hi, rfl⟩)
    · exact .inl rfl
  | other deed => exact .inr (.inr ⟨deed, rfl, rfl⟩)

/-! ### What a client asks for and is told -/

/-- The exchange of a client at a turn, if it has one. -/
def exchange? (c : Crowd α) (i : Nat) : Turn → Option Exchange
  | .client j => if j = i then c.clients[i]?.bind (·.exchange? c.world) else none
  | .other _ => none

/-- The exchanges of a client at some turns. -/
def history (c : Crowd α) (i : Nat) : List Turn → List Exchange
  | [] => []
  | turn :: rest => (c.exchange? i turn).toList ++ (c.step turn).history i rest

/-- A client has an exchange at a turn of its own, and goes on with the reply. -/
theorem exchange?_cases (c : Crowd α) (i : Nat) (turn : Turn) :
    (c.exchange? i turn = none ∧ (c.step turn).clients[i]? = c.clients[i]?) ∨
      ∃ x next, c.exchange? i turn = some x ∧ turn = .client i ∧ c.clients[i]? = some (.send x.request next) ∧
        c.world.answer x.request = (x.reply, (c.step turn).world) ∧ (c.step turn).clients[i]? = some (next x.reply) := by
  cases turn with
  | other deed => exact .inl ⟨rfl, rfl⟩
  | client j =>
    by_cases hij : j = i
    · subst hij
      rw [exchange?, if_pos rfl, step]
      cases hj : c.clients[j]? with
      | none => exact .inl ⟨rfl, hj⟩
      | some p =>
        cases p with
        | done a => exact .inl ⟨rfl, hj⟩
        | send r next =>
          have hlt : j < c.clients.length := (List.getElem?_eq_some_iff.1 hj).1
          exact .inr ⟨⟨r, (c.world.answer r).1⟩, next, rfl, rfl, rfl, rfl, List.getElem?_set_self hlt⟩
    · refine .inl ⟨if_neg hij, ?_⟩
      simp only [step]
      split
      · exact List.getElem?_set_ne hij
      · rfl

/-- What a client has to do after a turn is what its exchange has made of what it had to do before. -/
theorem reaches_exchange? {c : Crowd α} {turn : Turn} {i : Nat} {q : Program α} (hq : (c.step turn).clients[i]? = some q) :
    ∃ p, c.clients[i]? = some p ∧ p.Reaches (c.exchange? i turn).toList q := by
  obtain ⟨hx, hsame⟩ | ⟨x, next, hx, -, hsend, -, hnext⟩ := c.exchange?_cases i turn <;> rw [hx]
  · exact ⟨q, hsame ▸ hq, .here q⟩
  · rw [hq] at hnext
    cases hnext
    exact ⟨_, hsend, .send (.here _)⟩

/-- What a client has to do at any time is what its exchanges have made of its program. -/
theorem reaches_history {c : Crowd α} {turns : List Turn} {i : Nat} {q : Program α}
    (hq : (c.run turns).clients[i]? = some q) : ∃ p, c.clients[i]? = some p ∧ p.Reaches (c.history i turns) q := by
  induction turns generalizing c with
  | nil => exact ⟨q, hq, .here q⟩
  | cons turn rest ih =>
    obtain ⟨p, hp, hpq⟩ := ih hq
    obtain ⟨p', hp', hpp⟩ := reaches_exchange? hp
    exact ⟨p', hp', hpp.trans hpq⟩

/-- Clients neither come nor go. -/
theorem length_clients_run (c : Crowd α) (turns : List Turn) : (c.run turns).clients.length = c.clients.length := by
  induction turns generalizing c with
  | nil => rfl
  | cons turn rest ih =>
    have hstep : (c.step turn).clients.length = c.clients.length := by
      obtain hs | ⟨i, r, next, -, -, hs⟩ | ⟨deed, -, hs⟩ := c.step_cases turn <;> rw [hs]
      exact List.length_set
    exact (ih (c.step turn)).trans hstep

theorem history_append (c : Crowd α) (i : Nat) (turns turns' : List Turn) :
    c.history i (turns ++ turns') = c.history i turns ++ (c.run turns).history i turns' := by
  induction turns generalizing c with
  | nil => rfl
  | cons turn rest ih =>
    rw [List.cons_append, history, history, ih, List.append_assoc]
    rfl

/-! ### Results -/

/-- A client comes to its end at a turn of its own, by the reply to its request. -/
theorem Returns.inv {c : Crowd α} {turn : Turn} {i : Nat} {a : α} (h : c.Returns turn i a) :
    ∃ r next, turn = .client i ∧ c.clients[i]? = some (.send r next) ∧ next (c.world.answer r).1 = .done a ∧
      (c.step turn).world = (c.world.answer r).2 := by
  obtain ⟨hbefore, hafter⟩ := h
  obtain ⟨-, hsame⟩ | ⟨x, next, -, hturn, hsend, hanswer, hnext⟩ := c.exchange?_cases i turn
  · rw [result?, hsame] at hafter
    cases hbefore.symm.trans hafter
  · have hreply : (c.world.answer x.request).1 = x.reply := congrArg Prod.fst hanswer
    refine ⟨x.request, next, hturn, hsend, ?_, (congrArg Prod.snd hanswer).symm⟩
    rw [result?, hnext, Option.bind_some] at hafter
    rw [hreply]
    cases hn : next x.reply with
    | done b =>
      rw [hn] at hafter
      cases hafter
      rfl
    | send r next' =>
      rw [hn] at hafter
      cases hafter

/-- The result of the client that comes to its end at a turn, if one does. -/
def finished? (c : Crowd α) : Turn → Option α
  | .client i =>
    match c.clients[i]? with
    | some (.send r next) => (next (c.world.answer r).1).result?
    | _ => none
  | .other _ => none

/-- The results that clients come to at some turns, in the order of the turns. -/
def results (c : Crowd α) : List Turn → List α
  | [] => []
  | turn :: rest => (c.finished? turn).toList ++ (c.step turn).results rest

end Crowd

/-- A key that is taken stays taken, as long as nobody takes away what it holds. -/
theorem Server.held_undergo {s : Server} {deed : Deed} {key : ObjectKey} (hd : deed ≠ .remove key)
    (h : s.held key ≠ none) : (s.undergo deed).held key ≠ none := by
  cases deed with
  | create k map =>
    obtain ⟨m, hm⟩ := Option.ne_none_iff_exists'.1 h
    rw [undergo, s.grows_putNew k map key m hm]
    exact Option.some_ne_none m
  | change k map =>
    simp only [undergo]
    split
    · rw [held_put]
      split
      · exact Option.some_ne_none _
      · exact h
    · exact h
  | remove k =>
    have hne : key ≠ k := fun hk => hd (by rw [hk])
    rw [undergo, held_erase, if_neg hne]
    exact h

end TrainingJobs

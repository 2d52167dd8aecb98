import TrainingJobs.World

/-!
# What a program asks and is told

An `Exchange` is a request with the reply to it. `Program.Reaches` says what a program becomes by a list of exchanges,
whoever gave the replies, and `Program.Yields` that it comes to its end by them: a statement about the exchanges of a
program holds in every world, and beside any other clients. `World.Path` says what a list of exchanges does to a world. A
run is both (`Program.run_yields`, `Program.run_path`).
-/

namespace TrainingJobs

/-- A request and the reply to it. -/
structure Exchange where
  request : Request
  reply : request.Reply

namespace Exchange

/-- Whether something was stored, changed or taken away under a key. -/
def Writes : Exchange → ObjectKey → Prop
  | ⟨.createMap k _, .ok _⟩, key => k = key
  | ⟨.replaceMap k _ _, .ok _⟩, key => k = key
  | ⟨.patchMap k _, .ok _⟩, key => k = key
  | ⟨.deleteMap k, .ok _⟩, key => k = key
  | _, _ => False

/-- The call of the installer and its outcome, if it is one. -/
def call? : Exchange → Option (InstallerCall × Except InstallError String)
  | ⟨.install call, outcome⟩ => some (call, outcome)
  | _ => none

/-- An exchange of a list is the first one, or it comes behind it. -/
theorem split_cons {x y : Exchange} {ys before later : List Exchange} (h : y :: ys = before ++ x :: later) :
    (before = [] ∧ x = y ∧ later = ys) ∨ ∃ rest, before = y :: rest ∧ ys = rest ++ x :: later := by
  rcases List.cons_eq_append_iff.1 h with ⟨rfl, heq⟩ | ⟨rest, rfl, heq⟩
  · obtain ⟨rfl, rfl⟩ := List.cons_eq_cons.1 heq
    exact .inl ⟨rfl, rfl, rfl⟩
  · exact .inr ⟨rest, rfl, heq⟩

end Exchange

/-- A reply to a request: that of a world in which nothing can be reached. -/
def Request.someReply : (r : Request) → r.Reply
  | .createMap _ _ => .error .unreachable
  | .listMaps _ _ _ => .error .unreachable
  | .getMap _ => .error .unreachable
  | .replaceMap _ _ _ => .error .unreachable
  | .patchMap _ _ => .error .unreachable
  | .deleteMap _ => .error .unreachable
  | .listObjects _ _ _ => .error .unreachable
  | .install _ => .error (.valuesFile "")
  | .query _ _ => none
  | .log _ _ => ()
  | .print _ => ()
  | .now => .epoch

/-! ## The exchanges of a program -/

namespace Program

/-- What a program becomes by exchanges. -/
inductive Reaches {α : Type} : Program α → List Exchange → Program α → Prop
  | here (p : Program α) : Reaches p [] p
  | send {r : Request} {next : r.Reply → Program α} {reply : r.Reply} {xs : List Exchange} {q : Program α} :
      Reaches (next reply) xs q → Reaches (send r next) (⟨r, reply⟩ :: xs) q

/-- A program ends with a result by exchanges. -/
def Yields {α : Type} (p : Program α) (xs : List Exchange) (a : α) : Prop := p.Reaches xs (.done a)

variable {α β : Type}

@[simp] theorem done_yields_iff {a b : α} {xs : List Exchange} : (done a).Yields xs b ↔ xs = [] ∧ b = a := by
  constructor
  · intro h
    cases h
    exact ⟨rfl, rfl⟩
  · rintro ⟨rfl, rfl⟩
    exact .here _

theorem send_yields_iff {r : Request} {next : r.Reply → Program α} {xs : List Exchange} {a : α} :
    (send r next).Yields xs a ↔ ∃ reply ys, xs = ⟨r, reply⟩ :: ys ∧ (next reply).Yields ys a := by
  constructor
  · intro h
    cases h with
    | send h => exact ⟨_, _, rfl, h⟩
  · rintro ⟨reply, ys, rfl, h⟩
    exact .send h

@[simp] theorem ask_yields_iff {r : Request} {xs : List Exchange} {reply : r.Reply} :
    (ask r).Yields xs reply ↔ xs = [⟨r, reply⟩] := by
  simp only [ask, send_yields_iff, done_yields_iff]
  constructor
  · rintro ⟨_, _, rfl, rfl, rfl⟩
    rfl
  · rintro rfl
    exact ⟨_, _, rfl, rfl, rfl⟩

/-- A program that begins with a request goes on with the reply. -/
theorem ask_andThen_yields_iff {r : Request} {f : r.Reply → Program β} {xs : List Exchange} {b : β} :
    ((ask r).andThen f).Yields xs b ↔ ∃ reply ys, xs = ⟨r, reply⟩ :: ys ∧ (f reply).Yields ys b :=
  send_yields_iff

/-- The exchanges of a program followed by another are those of the one and then those of the other. -/
theorem andThen_yields_iff {p : Program α} {f : α → Program β} {xs : List Exchange} {b : β} :
    (p.andThen f).Yields xs b ↔ ∃ ys a zs, p.Yields ys a ∧ (f a).Yields zs b ∧ xs = ys ++ zs := by
  induction p generalizing xs with
  | done a =>
    simp only [done_andThen, done_yields_iff]
    constructor
    · intro h
      exact ⟨[], a, xs, ⟨rfl, rfl⟩, h, rfl⟩
    · rintro ⟨_, _, zs, ⟨rfl, rfl⟩, h, rfl⟩
      exact h
  | send r k ih =>
    simp only [andThen, send_yields_iff]
    constructor
    · rintro ⟨reply, us, rfl, h⟩
      obtain ⟨ys, a, zs, hp, hf, rfl⟩ := (ih reply).1 h
      exact ⟨_, a, zs, ⟨reply, ys, rfl, hp⟩, hf, rfl⟩
    · rintro ⟨_, a, zs, ⟨reply, ys, rfl, hp⟩, hf, rfl⟩
      exact ⟨reply, ys ++ zs, rfl, (ih reply).2 ⟨ys, a, zs, hp, hf, rfl⟩⟩

/-- One more exchange at the end. -/
theorem Reaches.snoc {p : Program α} {xs : List Exchange} {r : Request} {next : r.Reply → Program α}
    (h : p.Reaches xs (.send r next)) (reply : r.Reply) : p.Reaches (xs ++ [⟨r, reply⟩]) (next reply) := by
  generalize hq : Program.send r next = q at h
  induction h with
  | here p =>
    subst hq
    exact .send (.here _)
  | send _ ih => exact .send (ih hq)

theorem Reaches.trans {p q q' : Program α} {xs ys : List Exchange} (h : p.Reaches xs q) (h' : q.Reaches ys q') :
    p.Reaches (xs ++ ys) q' := by
  induction h with
  | here p => exact h'
  | send _ ih => exact .send (ih h')

/-- Every program comes to an end by some exchanges. -/
theorem exists_yields (p : Program α) : ∃ xs a, p.Yields xs a := by
  induction p with
  | done a => exact ⟨[], a, .here _⟩
  | send r next ih =>
    obtain ⟨xs, a, h⟩ := ih r.someReply
    exact ⟨⟨r, r.someReply⟩ :: xs, a, .send h⟩

/-- The exchanges of a program that is run in a world. -/
def exchanges : Program α → World → List Exchange
  | done _, _ => []
  | send r next, w => ⟨r, (w.answer r).1⟩ :: (next (w.answer r).1).exchanges (w.answer r).2

/-- A run ends with its result by its exchanges. -/
theorem run_yields (p : Program α) (w : World) : p.Yields (p.exchanges w) (p.run w).1 := by
  induction p generalizing w with
  | done a => exact .here _
  | send r next ih => exact .send (ih _ _)

/-- The exchanges of a program followed by another are those of the one and then those of the other. -/
theorem exchanges_andThen (p : Program α) (f : α → Program β) (w : World) :
    (p.andThen f).exchanges w = p.exchanges w ++ (f (p.run w).1).exchanges (p.run w).2 := by
  induction p generalizing w with
  | done a => rfl
  | send r next ih => rw [andThen, exchanges, exchanges, ih, run_send, List.cons_append]

end Program

/-! ## The way of a world -/

/-- A world becomes another one by giving the replies of exchanges. -/
inductive World.Path : World → List Exchange → World → Prop
  | nil (w : World) : Path w [] w
  | cons {w w₁ w' : World} {x : Exchange} {xs : List Exchange} :
      w.answer x.request = (x.reply, w₁) → Path w₁ xs w' → Path w (x :: xs) w'

namespace World

@[simp] theorem path_nil_iff {w w' : World} : w.Path [] w' ↔ w' = w := by
  constructor
  · intro h
    cases h
    rfl
  · rintro rfl
    exact .nil _

theorem path_cons_iff {w w' : World} {x : Exchange} {xs : List Exchange} :
    w.Path (x :: xs) w' ↔ ∃ w₁, w.answer x.request = (x.reply, w₁) ∧ w₁.Path xs w' := by
  constructor
  · intro h
    cases h with
    | cons ha h => exact ⟨_, ha, h⟩
  · rintro ⟨w₁, ha, h⟩
    exact .cons ha h

theorem path_append_iff {w w' : World} {xs ys : List Exchange} :
    w.Path (xs ++ ys) w' ↔ ∃ w₁, w.Path xs w₁ ∧ w₁.Path ys w' := by
  induction xs generalizing w with
  | nil => simp
  | cons x xs ih =>
    simp only [List.cons_append, path_cons_iff, ih]
    constructor
    · rintro ⟨w₁, ha, w₂, h, h'⟩
      exact ⟨w₂, ⟨w₁, ha, h⟩, h'⟩
    · rintro ⟨w₂, ⟨w₁, ha, h⟩, h'⟩
      exact ⟨w₁, ha, w₂, h, h'⟩

end World

/-- A run goes the way of its exchanges. -/
theorem Program.run_path {α : Type} (p : Program α) (w : World) : w.Path (p.exchanges w) (p.run w).2 := by
  induction p generalizing w with
  | done a => exact .nil _
  | send r next ih => exact .cons rfl (ih _ _)

/-- A program that begins with a request goes on with what the world replies. -/
theorem Program.run_ask_andThen {α : Type} {r : Request} {f : r.Reply → Program α} {w w' : World} {reply : r.Reply}
    (h : w.answer r = (reply, w')) : ((ask r).andThen f).run w = (f reply).run w' := by
  rw [ask, andThen, run_send, h]
  rfl

end TrainingJobs

import TrainingJobs.Cluster.Server

/-!
# Running programs

A `World` answers the requests of programs: it has a server, if one can be reached, an installer, a metrics server, a
log, an output and a clock. `Program.run` runs a program to its end in a world.
-/

namespace TrainingJobs

/-- What a program is run in. -/
structure World where
  server : Server := {}
  /-- Whether the server can be reached. -/
  reachable : Bool := true
  /-- What the installer does at a call, given the calls before it. -/
  installer : List InstallerCall → InstallerCall → Except InstallError String := fun _ _ => .ok ""
  /-- The calls of the installer so far. -/
  calls : List InstallerCall := []
  /-- What the metrics server answers to an address and an expression, given the expressions before it. -/
  metrics : List (String × String) → String → String → Option String := fun _ _ _ => none
  /-- What the metrics server was asked so far. -/
  queries : List (String × String) := []
  log : List (LogLevel × String) := []
  output : String := ""
  clock : Instant := .epoch

namespace World

/-- A request to the server. -/
def contact {α : Type} (w : World) (request : Server → Except ApiError α × Server) : Except ApiError α × World :=
  if w.reachable then
    let (answer, server) := request w.server
    (answer, { w with server := server })
  else (.error .unreachable, w)

/-- Answers a request. -/
def answer (w : World) : (r : Request) → r.Reply × World
  | .createMap key map => w.contact (·.create key map)
  | .listMaps space label value => w.contact (·.list space label value)
  | .getMap key => w.contact (·.get key)
  | .replaceMap key version map => w.contact (·.replace key version map)
  | .patchMap key texts => w.contact (·.patch key texts)
  | .deleteMap key => w.contact (·.delete key)
  | .listObjects kind space activeOnly => w.contact (·.listObjects kind space activeOnly)
  | .install call => (w.installer w.calls call, { w with calls := w.calls ++ [call] })
  | .query address expression =>
    (w.metrics w.queries address expression, { w with queries := w.queries ++ [(address, expression)] })
  | .log level text => ((), { w with log := w.log ++ [(level, text)] })
  | .print text => ((), { w with output := w.output ++ text })
  | .now => (w.clock, w)

end World

/-- Runs a program to its end. -/
def Program.run {α : Type} : Program α → World → α × World
  | .done a, w => (a, w)
  | .send r next, w =>
    let (reply, w) := w.answer r
    (next reply).run w

@[simp] theorem Program.run_done {α : Type} (a : α) (w : World) : (Program.done a).run w = (a, w) := rfl

theorem Program.run_send {α : Type} (r : Request) (next : r.Reply → Program α) (w : World) :
    (Program.send r next).run w = (next (w.answer r).1).run (w.answer r).2 := rfl

/-- A program followed by another is run by running one after the other. -/
theorem Program.run_andThen {α β : Type} (p : Program α) (f : α → Program β) (w : World) :
    (p.andThen f).run w = (f (p.run w).1).run (p.run w).2 := by
  induction p generalizing w with
  | done a => rfl
  | send r k ih => simp only [Program.andThen, Program.run_send, ih]

end TrainingJobs

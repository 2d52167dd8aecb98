import TrainingJobs.Cluster.ApiError
import TrainingJobs.Cluster.ConfigMap
import TrainingJobs.Installer

/-!
# Programs that talk to the world

A `Program` is a tree of requests: it is done with a result, or it sends a request and goes on with the reply. What a
request does is left open here, so one program can be run against a store, step by step beside other programs, or with
any replies at all.
-/

namespace TrainingJobs

/-- The kinds of objects of a cluster. -/
inductive ObjectKind
  | nodes
  | pods
  | jobs
  | statefulSets
  | nodeMetrics
  | configMaps
deriving DecidableEq, Repr

/-- How grave a note in the log is. -/
inductive LogLevel
  | warn
  | error
deriving DecidableEq, Repr

/-- What a program can ask for. -/
inductive Request
  /-- Stores a config map under a key that is free. -/
  | createMap (key : ObjectKey) (map : ConfigMap)
  /-- The config maps of a namespace with a label of a value. The selector `label=value` is not kept as a text, so the value
  has to be one that a label can have. -/
  | listMaps (space label value : String)
  | getMap (key : ObjectKey)
  /-- Stores a config map in place of one that still has the given version. -/
  | replaceMap (key : ObjectKey) (version : Nat) (map : ConfigMap)
  /-- Sets texts of a config map and keeps its others. -/
  | patchMap (key : ObjectKey) (texts : Labels)
  | deleteMap (key : ObjectKey)
  /-- The objects of a kind, of one namespace or of all, perhaps without pods that have finished. -/
  | listObjects (kind : ObjectKind) (space : Option String) (activeOnly : Bool)
  | install (call : InstallerCall)
  /-- Asks the metrics server at an address to work out an expression. -/
  | query (address expression : String)
  | log (level : LogLevel) (text : String)
  | print (text : String)
  | now

/-- The reply to a request. An installer gives a text, which means something only for rendering; a metrics server gives a
text or no answer. -/
abbrev Request.Reply : Request → Type
  | .createMap _ _ => Except ApiError Unit
  | .listMaps _ _ _ => Except ApiError (List (String × ConfigMap))
  | .getMap _ => Except ApiError (Option StoredMap)
  | .replaceMap _ _ _ => Except ApiError Unit
  | .patchMap _ _ => Except ApiError Unit
  | .deleteMap _ => Except ApiError Unit
  | .listObjects _ _ _ => Except ApiError (List Json)
  | .install _ => Except InstallError String
  | .query _ _ => Option String
  | .log _ _ => Unit
  | .print _ => Unit
  | .now => Instant

/-- A tree of requests with results of a type at its ends. -/
inductive Program (α : Type) : Type
  | done (result : α)
  | send (request : Request) (next : request.Reply → Program α)

namespace Program

/-- A program followed by one that takes its result. -/
def andThen {α β : Type} : Program α → (α → Program β) → Program β
  | done a, next => next a
  | send r k, next => send r fun reply => (k reply).andThen next

instance : Monad Program where
  pure := done
  bind := andThen

/-- Sends one request. -/
def ask (r : Request) : Program r.Reply := send r done

/-- Writes a text to the output. -/
def print (text : String) : Program Unit := ask (.print text)

/-- Writes a line to the output. -/
def printLine (text : String) : Program Unit := print (text ++ "\n")

/-- Notes something that others should look at. -/
def warn (text : String) : Program Unit := ask (.log .warn text)

/-- Notes something that went wrong. -/
def logError (text : String) : Program Unit := ask (.log .error text)

@[simp] theorem pure_eq {α : Type} (a : α) : (pure a : Program α) = done a := rfl

@[simp] theorem bind_eq {α β : Type} (p : Program α) (f : α → Program β) : p >>= f = p.andThen f := rfl

@[simp] theorem done_andThen {α β : Type} (a : α) (f : α → Program β) : (done a).andThen f = f a := rfl

@[simp] theorem andThen_done {α : Type} (p : Program α) : p.andThen done = p := by
  induction p with
  | done a => rfl
  | send r k ih => simp only [andThen, ih]

theorem andThen_assoc {α β γ : Type} (p : Program α) (f : α → Program β) (g : β → Program γ) :
    (p.andThen f).andThen g = p.andThen fun a => (f a).andThen g := by
  induction p with
  | done a => rfl
  | send r k ih => simp only [andThen, ih]

instance : LawfulMonad Program :=
  LawfulMonad.mk' Program (fun p => andThen_done p) (fun _ _ => rfl) (fun p f g => andThen_assoc p f g)

end Program

end TrainingJobs

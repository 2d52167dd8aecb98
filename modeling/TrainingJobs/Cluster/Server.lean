import TrainingJobs.Cluster.Objects
import TrainingJobs.Program
import TrainingJobs.Registry.Record

/-!
# A server in memory

A `Server` keeps config maps and lists the other objects of a cluster. It can be told to fail requests (`Fault`), and to
act for other clients that register names at the same time (`races`, `racing`). A request that fails has no effect.
-/

namespace TrainingJobs

/-- What a request does. -/
inductive Verb
  | create
  | list
  | get
  | replace
  | patch
  | delete
deriving DecidableEq, Repr

/-- A failure to come: requests with a verb, perhaps of one kind of objects, fail once, after some have been served. -/
structure Fault where
  verb : Verb
  kind : Option ObjectKind := none
  skip : Nat := 0
  status : Nat := 500
deriving DecidableEq

/-- Whether a failure is for a request. -/
def Fault.fits (f : Fault) (verb : Verb) (kind : ObjectKind) : Bool := f.verb = verb && f.kind.all (· = kind)

namespace Faults

/-- The status a request fails with, if the first failure that is for it has come, and the failures to come after it. -/
def take (verb : Verb) (kind : ObjectKind) : List Fault → Option Nat × List Fault
  | [] => (none, [])
  | f :: rest =>
    if f.fits verb kind then
      if f.skip = 0 then (some f.status, rest) else (none, { f with skip := f.skip - 1 } :: rest)
    else
      let (status, rest) := take verb kind rest
      (status, f :: rest)

end Faults

/-- A server in memory. -/
structure Server where
  maps : MapStore := .empty
  /-- The version that the next write gives. -/
  nextVersion : Nat := 1
  /-- The other objects by kind. -/
  objects : ObjectKind → List Json := fun _ => []
  faults : List Fault := []
  /-- Config maps of other clients, of which each creation lets the next one go first. -/
  races : List (String × ConfigMap) := []
  /-- Whether others take the names next to a family as soon as it has been listed. -/
  racing : Bool := false

namespace Server

/-- Puts a config map under a key. -/
def put (s : Server) (key : ObjectKey) (map : ConfigMap) : Server :=
  { s with maps := s.maps.insert key ⟨map, s.nextVersion⟩, nextVersion := s.nextVersion + 1 }

/-- Puts a config map under a key if it is free. -/
def putNew (s : Server) (key : ObjectKey) (map : ConfigMap) : Server :=
  if s.maps.contains key then s else s.put key map

/-- Serves a request unless a failure is due. -/
def serve {α : Type} (s : Server) (verb : Verb) (kind : ObjectKind) (answer : Server → Except ApiError α × Server) :
    Except ApiError α × Server :=
  match Faults.take verb kind s.faults with
  | (some status, faults) => (.error (.status status), { s with faults := faults })
  | (none, faults) => answer { s with faults := faults }

/-- The next of the other clients creates its config map in a namespace. -/
def letRaceRun (s : Server) (space : String) : Server :=
  match s.races with
  | [] => s
  | (name, map) :: rest => { s with races := rest }.putNew ⟨space, name⟩ map

/-- Stores a config map under a key that is free. -/
def create (s : Server) (key : ObjectKey) (map : ConfigMap) : Except ApiError Unit × Server :=
  s.serve .create .configMaps fun s =>
    let s := s.letRaceRun key.space
    if s.maps.contains key then (.error .conflict, s) else (.ok (), s.put key map)

/-- The config maps of a namespace with a label, by name. -/
def labelled (s : Server) (space label value : String) : List (String × ConfigMap) :=
  (s.maps.entries.filter fun e => e.1.space == space && e.2.map.label? label == some value).map
    fun e => (e.1.name, e.2.map)

/-- The config map that another client makes for a member of a family. -/
def rival (family : String) (index : Nat) : ConfigMap :=
  { labels := some (.ofList [(Keys.familyNameLabel, family), (Keys.familyIndexLabel, toString index)]) }

/-- Other clients take the free ones of the first `count` names of a family. -/
def letRivalsRun (s : Server) (space family : String) (count : Nat) : Server :=
  (List.range count).foldl (fun s i => s.putNew ⟨space, candidateName family i⟩ (rival family i)) s

/-- The config maps of a namespace with a label. -/
def list (s : Server) (space label value : String) : Except ApiError (List (String × ConfigMap)) × Server :=
  s.serve .list .configMaps fun s =>
    let found := s.labelled space label value
    (.ok found, if s.racing then s.letRivalsRun space value (found.length + 2) else s)

/-- The config map under a key. One that is absent is no failure, also when the absence is a failure to come. -/
def get (s : Server) (key : ObjectKey) : Except ApiError (Option StoredMap) × Server :=
  match s.serve .get .configMaps fun s => (.ok (s.maps.get? key), s) with
  | (.error e, s) => (if e = .absent then .ok none else .error e, s)
  | answer => answer

/-- Stores a config map in place of one that still has a version. -/
def replace (s : Server) (key : ObjectKey) (version : Nat) (map : ConfigMap) : Except ApiError Unit × Server :=
  s.serve .replace .configMaps fun s =>
    match s.maps.get? key with
    | none => (.error .absent, s)
    | some stored => if stored.version = version then (.ok (), s.put key map) else (.error .conflict, s)

/-- Sets texts of a config map. -/
def patch (s : Server) (key : ObjectKey) (texts : Labels) : Except ApiError Unit × Server :=
  s.serve .patch .configMaps fun s =>
    match s.maps.get? key with
    | none => (.error .absent, s)
    | some stored => (.ok (), s.put key (stored.map.withTexts texts))

/-- Takes a config map away. -/
def delete (s : Server) (key : ObjectKey) : Except ApiError Unit × Server :=
  s.serve .delete .configMaps fun s =>
    if s.maps.contains key then (.ok (), { s with maps := s.maps.erase key }) else (.error .absent, s)

/-- Whether an object is in a namespace. -/
def isIn (space : String) (object : Json) : Bool :=
  (Objects.path? ["metadata", "namespace"] object).bind Objects.text? == some space

/-- Whether a pod has not finished, by the text of its phase. -/
def isUnfinished (object : Json) : Bool :=
  let phase := ((Objects.path? ["status", "phase"] object).bind Objects.text?).getD ""
  phase != "Succeeded" && phase != "Failed"

/-- The objects of a kind. -/
def listObjects (s : Server) (kind : ObjectKind) (space : Option String) (activeOnly : Bool) :
    Except ApiError (List Json) × Server :=
  s.serve .list kind fun s =>
    (.ok ((s.objects kind).filter fun object => space.all (isIn · object) && (!activeOnly || isUnfinished object)), s)

end Server

end TrainingJobs

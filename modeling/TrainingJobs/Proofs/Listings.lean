import TrainingJobs.Cluster.Reader
import TrainingJobs.World

/-!
# What a listing gives

A listing fails when the server cannot be reached or has a failure to come for it, and otherwise gives the objects that it is asked for
(`World.listReply`). It changes nothing but the failures to come (`World.answer_listObjects`).
-/

namespace TrainingJobs

namespace World

/-- The objects of a kind that a listing is to give. -/
def listed (w : World) (kind : ObjectKind) (space : Option String) (activeOnly : Bool) : List Json :=
  (w.server.objects kind).filter fun object => space.all (Server.isIn · object) && (!activeOnly || Server.isUnfinished object)

/-- Why the next listing of a kind fails, if it does. -/
def listError? (w : World) (kind : ObjectKind) : Option ApiError :=
  if w.reachable then (Faults.take .list kind w.server.faults).1.map .status else some .unreachable

/-- The world behind the next listing of a kind. -/
def afterListing (w : World) (kind : ObjectKind) : World :=
  if w.reachable then { w with server := { w.server with faults := (Faults.take .list kind w.server.faults).2 } } else w

/-- The reply to a listing. -/
def listReply (w : World) (kind : ObjectKind) (space : Option String) (activeOnly : Bool) : Except ApiError (List Json) :=
  match w.listError? kind with
  | some e => .error e
  | none => .ok (w.listed kind space activeOnly)

/-- A listing fails or gives the objects; it changes nothing but the failures to come. -/
theorem answer_listObjects (w : World) (kind : ObjectKind) (space : Option String) (activeOnly : Bool) :
    w.answer (.listObjects kind space activeOnly) = (w.listReply kind space activeOnly, w.afterListing kind) := by
  change w.contact (·.listObjects kind space activeOnly) = _
  unfold contact listReply listError? afterListing
  by_cases hreach : w.reachable = true
  · simp only [if_pos hreach, Server.listObjects, Server.serve]
    rcases htake : Faults.take .list kind w.server.faults with ⟨status, faults⟩
    cases status with
    | some status => rfl
    | none => rfl
  · simp only [if_neg hreach]

/-- All objects of a kind are listed unless those that have finished are to be left out. -/
theorem listed_all (w : World) (kind : ObjectKind) : w.listed kind none false = w.server.objects kind := by
  simp [listed]

theorem listed_of_listReply {w : World} {kind : ObjectKind} {space : Option String} {activeOnly : Bool} {objects : List Json}
    (h : w.listReply kind space activeOnly = .ok objects) : objects = w.listed kind space activeOnly := by
  unfold listReply at h
  split at h
  · cases h
  · exact (Except.ok.inj h).symm

@[simp] theorem objects_afterListing (w : World) (kind : ObjectKind) : (w.afterListing kind).server.objects = w.server.objects := by
  unfold afterListing
  split <;> rfl

@[simp] theorem listed_afterListing (w : World) (kind kind' : ObjectKind) (space : Option String) (activeOnly : Bool) :
    (w.afterListing kind').listed kind space activeOnly = w.listed kind space activeOnly := by
  unfold listed
  rw [objects_afterListing]

@[simp] theorem clock_afterListing (w : World) (kind : ObjectKind) : (w.afterListing kind).clock = w.clock := by
  unfold afterListing
  split <;> rfl

@[simp] theorem output_afterListing (w : World) (kind : ObjectKind) : (w.afterListing kind).output = w.output := by
  unfold afterListing
  split <;> rfl

end World

/-- A listing is taken when it is answered and all that is listed has the shape. -/
theorem Reader.decoded_eq_ok_iff {isOne : Json → Bool} {reply : Except ApiError (List Json)} {objects : List Json} :
    Reader.decoded isOne reply = .ok objects ↔ reply = .ok objects ∧ ∀ object ∈ objects, isOne object = true := by
  cases reply with
  | error e => simp [Reader.decoded]
  | ok found =>
    by_cases hall : ∀ object ∈ found, isOne object = true
    · simp only [Reader.decoded, List.all_eq_true.2 hall, if_true, Except.ok.injEq]
      constructor
      · rintro rfl
        exact ⟨rfl, hall⟩
      · exact And.left
    · simp only [Reader.decoded, mt List.all_eq_true.1 hall, Except.ok.injEq]
      constructor
      · intro herror
        cases herror
      · rintro ⟨rfl, hobjects⟩
        exact absurd hobjects hall

end TrainingJobs

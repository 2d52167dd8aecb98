import TrainingJobs.Cluster.ConfigMap
import TrainingJobs.Job.Name

/-!
# Records of job names

A record reserves the name of a job in a namespace. Jobs that ask for one name make a family: the first one gets the name
itself, the others get it with a number. The labels of a record hold its family, so that it can be rebuilt from them.
-/

namespace TrainingJobs

/-- The name of a member of a family; number 0 is the name itself. -/
def candidateName (base : String) (index : Nat) : String :=
  if index = 0 then base else base ++ "-" ++ toString index

@[simp] theorem candidateName_zero (base : String) : candidateName base 0 = base := if_pos rfl

theorem candidateName_of_ne_zero {index : Nat} (h : index ≠ 0) (base : String) :
    candidateName base index = base ++ "-" ++ toString index := if_neg h

/-- A number makes a name longer, by a hyphen and its digits. -/
theorem length_candidateName {index : Nat} (h : index ≠ 0) (base : String) :
    (candidateName base index).length = base.length + 1 + (toString index).length := by
  rw [candidateName_of_ne_zero h, String.length_append, String.length_append]
  rfl

/-- The members of a family have different names. -/
theorem candidateName_inj {base : String} {i j : Nat} (h : candidateName base i = candidateName base j) : i = j := by
  have hlength := congrArg String.length h
  by_cases hi : i = 0 <;> by_cases hj : j = 0
  · rw [hi, hj]
  · rw [hi, candidateName_zero, length_candidateName hj] at hlength
    omega
  · rw [hj, candidateName_zero, length_candidateName hi] at hlength
    omega
  · rw [candidateName_of_ne_zero hi, candidateName_of_ne_zero hj] at h
    exact toString_inj ((String.append_right_inj _).1 h)

/-- What a job is called: the name asked for, the name granted and the number in the family. -/
structure JobIdentity where
  requested : JobName
  resolved : String
  familyIndex : Nat
deriving DecidableEq

/-- A record of a name. -/
structure Record where
  name : String := ""
  space : String := ""
  familyName : String := ""
  familyIndex : Nat := 0
  data : Labels := .empty
deriving DecidableEq, Inhabited

namespace Record

/-- The record that a member of a family would get. -/
def candidate (family : JobName) (space : String) (index : Nat) : Record :=
  { name := candidateName family.text index, space := space, familyName := family.text, familyIndex := index }

/-- The key of the record in the cluster. -/
def key (r : Record) : ObjectKey := ⟨r.space, r.name⟩

/-- The labels of a record. -/
def labels (r : Record) : Labels :=
  .ofList [(Keys.familyNameLabel, r.familyName), (Keys.familyIndexLabel, toString r.familyIndex),
    (Keys.managedByLabel, Keys.managedByValue)]

/-- Rebuilds a record from labels. Without labels of a family it is a family of its own, with number 0. -/
def ofLabels (name space : String) (labels data : Labels) : Record :=
  { name := name
    space := space
    familyName := (labels.get? Keys.familyNameLabel).getD name
    familyIndex := ((labels.get? Keys.familyIndexLabel).bind (readNatural? maxWord)).getD 0
    data := data }

/-- What the job of the record is called. -/
def identity (r : Record) (requested : JobName) : JobIdentity := ⟨requested, r.name, r.familyIndex⟩

/-- The config map that holds a record. -/
def toConfigMap (r : Record) : ConfigMap :=
  { labels := some r.labels, data := if r.data.isEmpty then none else some r.data }

/-- The record that a config map holds. -/
def ofConfigMap (name space : String) (m : ConfigMap) : Record :=
  ofLabels name space (m.labels.getD .empty) (m.data.getD .empty)

end Record

end TrainingJobs

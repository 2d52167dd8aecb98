import TrainingJobs.Cluster.Snapshot

/-!
# Config maps

A config map is an object of the cluster that holds texts by name. It is known by its namespace and its name
(`ObjectKey`). A stored one has a version that changes with every write, so that a writer can tell whether it still is
what was read.
-/

namespace TrainingJobs

/-- The namespace and the name of an object. -/
structure ObjectKey where
  space : String
  name : String
deriving DecidableEq, Repr, Inhabited

namespace ObjectKey

/-- Keys are ordered by namespace and then by name. -/
instance : Ord ObjectKey := ⟨compareLex (compareOn ObjectKey.space) (compareOn ObjectKey.name)⟩

instance : Std.TransOrd ObjectKey :=
  inferInstanceAs (Std.TransCmp (compareLex (compareOn ObjectKey.space) (compareOn ObjectKey.name)))

theorem compare_eq_iff {a b : ObjectKey} : compare a b = .eq ↔ a = b := by
  have h : compare a b = (compare a.space b.space).then (compare a.name b.name) := rfl
  rw [h, Ordering.then_eq_eq, Std.LawfulEqOrd.compare_eq_iff_eq, Std.LawfulEqOrd.compare_eq_iff_eq]
  cases a; cases b; simp

instance : Std.LawfulEqOrd ObjectKey where
  eq_of_compare h := compare_eq_iff.1 h

end ObjectKey

/-- A config map. Its labels and its texts can be missing altogether. -/
structure ConfigMap where
  labels : Option Labels := none
  data : Option Labels := none
deriving DecidableEq, Inhabited

namespace ConfigMap

/-- The text of a name. -/
def text? (m : ConfigMap) (name : String) : Option String := m.data.bind (·.get? name)

/-- The value of a label. -/
def label? (m : ConfigMap) (name : String) : Option String := m.labels.bind (·.get? name)

/-- The same config map with some texts set. -/
def withTexts (m : ConfigMap) (texts : Labels) : ConfigMap :=
  { m with data := some ((m.data.getD .empty).insertAll texts.entries) }

end ConfigMap

/-- A config map in the cluster. -/
structure StoredMap where
  map : ConfigMap
  version : Nat
deriving DecidableEq, Inhabited

/-- The config maps of a cluster. -/
abbrev MapStore := SortedTable ObjectKey StoredMap

end TrainingJobs

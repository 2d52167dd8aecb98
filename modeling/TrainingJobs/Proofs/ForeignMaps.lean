import TrainingJobs.Proofs.Pruning

/-!
# Config maps of others

Records lie among all the other config maps of their namespaces, and each carries a mark (`ConfigMap.Managed`). Deletions and
prunings are meant for records: a config map without the mark should stay, no text of it should reach the installer, and its name
should be answered like that of a job that was never submitted. But nobody looks at the mark, so that holds just of the stores in
which no other config map lies under a key that is asked for (`foreign_spared_iff`, `deletion_spares_web_false`).
-/

namespace TrainingJobs

open Lifecycle Commands

/-- A config map without the mark is held under a key. -/
def World.HoldsForeign (w : World) (key : ObjectKey) : Prop := ∃ m, w.held key = some m ∧ ¬m.map.Managed

/-! ## What should hold -/

/-- A world becomes another one by exchanges that touch records only. -/
structure Spares (w : World) (xs : List Exchange) (w' : World) : Prop where
  /-- A config map without the mark stays as it is. -/
  kept : ∀ key m, w.held key = some m → ¬m.map.Managed → w'.held key = some m
  /-- The installer gets manifests of records only. -/
  uninstalls : ∀ space manifest outcome, uninstalled space manifest outcome ∈ xs →
    ∃ name m, w.held ⟨space, name⟩ = some m ∧ m.map.Managed ∧ m.map.text? manifestText = some manifest

/-- A deletion touches records only. Where nothing fails it answers the name of any other config map like one that is free. -/
structure DeletionSpares (w : World) (space name : String) : Prop
    extends Spares w ((delete space name).exchanges w) ((delete space name).run w).2 where
  answered : w.Calm → w.HoldsForeign ⟨space, name⟩ → ((delete space name).run w).1 = .error (.notFound name)

/-- A pruning touches records only. Where nothing fails it comes to its end, and passes over the names of other config maps. -/
structure PruningSpares (w : World) (s : Snapshot) (olderThan : Duration) : Prop
    extends Spares w ((prune (pure (.ok s)) olderThan).exchanges w)
      ((prune (pure (.ok s)) olderThan).run w).2 where
  skipped : w.Calm → (∃ names, ((prune (pure (.ok s)) olderThan).run w).1 = .ok names) ∧
    ∀ job ∈ s.workloads, s.Prunable olderThan job → w.HoldsForeign job.key →
      (.warn, "Skipping " ++ job.name ++ ", it was not submitted from this CLI") ∈
        ((prune (pure (.ok s)) olderThan).run w).2.log

/-! ## What holds -/

namespace ForeignMapsAux

/-- Deletions touch records only, if there is nothing else under their keys. -/
theorem spares_of_deletedInTurn {w w' : World} {keys : List ObjectKey} {xs : List Exchange} (h : DeletedInTurn keys xs)
    (hp : w.Path xs w') (hmanaged : ∀ key ∈ keys, ∀ m, w.held key = some m → m.map.Managed) : Spares w xs w' where
  kept := by
    intro key m hm hforeign
    have hkey : key ∉ keys := fun hkey => hforeign (hmanaged key hkey m hm)
    refine hp.held (fun x hx hw => ?_) hm
    have hdelete : x.request = .deleteMap key := by rw [h.writes hx hw]
    exact hkey (h.mem_keys hx (.inr hdelete))
  uninstalls := by
    intro space manifest outcome hx
    obtain ⟨key, hkey, rfl, found, hfound, htext⟩ := h.found_of_uninstalled hx
    have hheld : w.held key = some found := hp.held_of_found h.putsNothing hfound
    exact ⟨key.name, found, hheld, hmanaged key hkey found hheld, htext⟩

/-- Deletions of a name touch records only, in every world with some store, just when that has nothing else under the name. -/
theorem deletionSpares_iff (maps : MapStore) (space name : String) :
    (∀ w : World, w.server.maps = maps → DeletionSpares w space name) ↔
      ∀ m, maps.get? ⟨space, name⟩ = some m → m.map.Managed := by
  constructor
  · intro h m hm
    refine Classical.byContradiction fun hforeign => ?_
    have hkept := (h (.calmWith maps) rfl).kept ⟨space, name⟩ m hm hforeign
    -- Where nothing fails the config map is gone, with or without the mark.
    obtain ⟨w', -, hheld, hrun⟩ := delete_calm (World.calm_calmWith maps) space name
    rw [hrun, hheld, if_pos rfl] at hkept
    cases hkept
  · intro h w hw
    have hmanaged : ∀ m, w.held ⟨space, name⟩ = some m → m.map.Managed := by
      intro m hm
      rw [← hw] at h
      exact h m hm
    have hdeleted : DeletedInTurn [⟨space, name⟩] ((delete space name).exchanges w) :=
      .last (delete_yields ((delete space name).run_yields w))
    refine ⟨spares_of_deletedInTurn hdeleted ((delete space name).run_path w) fun key hkey => ?_, fun _ hforeign => ?_⟩
    · rw [List.mem_singleton.1 hkey]
      exact hmanaged
    · obtain ⟨m, hm, hunmarked⟩ := hforeign
      exact absurd (hmanaged m hm) hunmarked

/-- Prunings touch records only, in every world with some store, just when that has nothing else under the names of the workloads
that can be pruned. -/
theorem pruningSpares_iff (maps : MapStore) (s : Snapshot) (olderThan : Duration) :
    (∀ w : World, w.server.maps = maps → PruningSpares w s olderThan) ↔
      ∀ job ∈ s.workloads, s.Prunable olderThan job → ∀ m, maps.get? job.key = some m → m.map.Managed := by
  constructor
  · intro h job hjob hprunable m hm
    refine Classical.byContradiction fun hforeign => ?_
    have hkept := (h (.calmWith maps) rfl).kept job.key m hm hforeign
    obtain ⟨names, w', hrun, hheld⟩ := prune_calm (World.calm_calmWith maps) s olderThan
    have hcandidate := mem_keys_pruneCandidates_iff.2 ⟨job, hjob, rfl, hprunable⟩
    rw [hrun, hheld, if_pos hcandidate] at hkept
    cases hkept
  · intro h w hw
    have hmanaged : ∀ job ∈ s.workloads, s.Prunable olderThan job → ∀ m, w.held job.key = some m → m.map.Managed := by
      intro job hjob hprunable m hm
      rw [← hw] at h
      exact h job hjob hprunable m hm
    have hpath := (prune (pure (.ok s)) olderThan).run_path w
    refine ⟨spares_of_deletedInTurn (prune_deletedInTurn w s olderThan) hpath fun key hkey => ?_, fun hcalm => ⟨?_, ?_⟩⟩
    · obtain ⟨job, hjob, rfl, hprunable⟩ := mem_keys_pruneCandidates_iff.1 hkey
      exact hmanaged job hjob hprunable
    · obtain ⟨names, w', hrun, -⟩ := prune_calm hcalm s olderThan
      exact ⟨names, by rw [hrun]⟩
    · intro job hjob hprunable hforeign
      obtain ⟨m, hm, hunmarked⟩ := hforeign
      exact absurd (hmanaged job hjob hprunable m hm) hunmarked

end ForeignMapsAux

open ForeignMapsAux

/-- Deletions of a name touch records only, in every world with some store, just when the store has nothing but a record under
that name. Prunings touch records only, in every world with that store, just when it has nothing but records under the names of
the workloads that can be pruned. -/
theorem foreign_spared_iff (maps : MapStore) :
    (∀ space name, (∀ w : World, w.server.maps = maps → DeletionSpares w space name) ↔
        ∀ m, maps.get? ⟨space, name⟩ = some m → m.map.Managed) ∧
      ∀ s olderThan, (∀ w : World, w.server.maps = maps → PruningSpares w s olderThan) ↔
        ∀ job ∈ s.workloads, s.Prunable olderThan job → ∀ m, maps.get? job.key = some m → m.map.Managed :=
  ⟨deletionSpares_iff maps, pruningSpares_iff maps⟩

/-- A namespace in which somebody else keeps a config map `web`, with a text that is called like the manifest of a record. -/
def sharedSpace : World :=
  { server := ({} : Server).putNew ⟨"team-a", "web"⟩
      { labels := some (.ofList [("app", "web")]), data := some (.ofList [("app", "kind: Deployment")]) } }

/-- The config map of somebody else is deleted like a job, and its text is handed to the installer. -/
theorem deletion_spares_web_false :
    sharedSpace.HoldsForeign ⟨"team-a", "web"⟩ ∧
      ((delete "team-a" "web").run sharedSpace).2.held ⟨"team-a", "web"⟩ = none ∧
      ((delete "team-a" "web").run sharedSpace).2.calls = [.uninstall "team-a" "kind: Deployment"] ∧
      ¬DeletionSpares sharedSpace "team-a" "web" := by
  have hforeign : sharedSpace.HoldsForeign ⟨"team-a", "web"⟩ := ⟨_, rfl, by decide⟩
  have hgone : ((delete "team-a" "web").run sharedSpace).2.held ⟨"team-a", "web"⟩ = none := rfl
  refine ⟨hforeign, hgone, rfl, fun h => ?_⟩
  obtain ⟨m, hm, hunmarked⟩ := hforeign
  rw [h.kept _ m hm hunmarked] at hgone
  cases hgone

end TrainingJobs

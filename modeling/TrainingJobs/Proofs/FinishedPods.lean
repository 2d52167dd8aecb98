import TrainingJobs.Proofs.NodeReadings

/-!
# Pods that are not listed

Nodes are read with the pods that have not finished: the server tells them by the text of their phase, and leaves out the others
(`Server.isUnfinished`). A pod has finished by that text just when its record has (`isUnfinished_eq_isActive`), and what is shown of
nodes looks at no pod that has finished. So nothing that is shown is missed (`unlisted_pods_unseen`).
-/

namespace TrainingJobs

/-- The nodes and pods of a cluster all have names. -/
structure World.Named (w : World) : Prop where
  nodes : ∀ object ∈ w.server.objects .nodes, Objects.name? object ≠ none
  pods : ∀ object ∈ w.server.objects .pods, Objects.name? object ≠ none

/-- The server lists nodes, and then the pods that have not finished, and what it lists has the shape of nodes and pods. -/
structure World.Lists (w : World) : Prop where
  nodes : ∃ objects, (w.answer (.listObjects .nodes none false)).1 = .ok objects ∧
    ∀ object ∈ objects, Shape.isObject "v1" "Node" Shape.node object = true
  pods : ∃ objects, ((w.answer (.listObjects .nodes none false)).2.answer (.listObjects .pods none true)).1 = .ok objects ∧
    ∀ object ∈ objects, Shape.isObject "v1" "Pod" Shape.pod object = true

/-- The snapshot that is made from all nodes and all pods of a cluster. -/
def World.fullSnapshot (w : World) : Except ObjectError Snapshot :=
  ((Reader.nodeRecords (w.server.objects .nodes) (w.server.objects .pods)).run.run []).1.map fun records =>
    { nodes := records.1, pods := records.2, takenAt := w.clock }

/-- Two snapshots show the same of each node and of the cluster, whatever the metrics say: the views, the pods that ask for GPUs on any
node, and the report with its rows, its totals and the pods listed in it. -/
structure Snapshot.ShowsAs (a b : Snapshot) : Prop where
  views : ∀ samples, { a with metrics := samples }.nodeViews = { b with metrics := samples }.nodeViews
  gpuPods : ∀ node, gpuPods (podsOn node a.pods) = gpuPods (podsOn node b.pods)
  report : ∀ samples details,
    NodeReport.of { a with metrics := samples } details = NodeReport.of { b with metrics := samples } details

namespace FinishedPodsAux

open ProjectListsAux NodeReadingsAux RequestAux

/-! ## The phase of an object and of its record -/

/-- A phase is active unless its name is that of a phase that ends a pod. -/
theorem isActive_ofName (name : String) : (PodPhase.ofName name).isActive = (name != "Succeeded" && name != "Failed") := by
  unfold PodPhase.ofName
  split <;> simp_all [PodPhase.isActive]

/-- The text of the phase that the server looks at is the one that is read. -/
theorem phase_path (object : Json) :
    ((Objects.path? ["status", "phase"] object).bind Objects.text?).getD "" =
      Objects.textField "phase" ((Objects.field? "status" object).getD .null) := by
  cases hstatus : Objects.field? "status" object with
  | none =>
    have hpath : Objects.path? ["status", "phase"] object = none := by simp [Objects.path?, hstatus]
    rw [hpath]
    rfl
  | some status =>
    have hpath : Objects.path? ["status", "phase"] object = Objects.field? "phase" status := by simp [Objects.path?, hstatus]
    rw [hpath]
    rfl

/-- A pod is listed just when its record is active, also one without a phase or with one that nobody knows. -/
theorem isUnfinished_eq_isActive {object : Json} {p : Pod} (h : result (Objects.podOf object) [] = .ok p) :
    Server.isUnfinished object = p.phase.isActive := by
  obtain ⟨_, _, -, h⟩ := exists_of_result_bind h
  obtain ⟨_, _, -, h⟩ := exists_of_result_bind h
  cases h
  dsimp only
  rw [isActive_ofName, ← phase_path]
  rfl

/-! ## What looks at no pod that has finished -/

theorem podsOn_filter (node : String) (pods : List Pod) : podsOn node (pods.filter (·.phase.isActive)) = podsOn node pods := by
  unfold podsOn
  rw [List.filter_filter]
  refine List.filter_congr fun p _ => ?_
  unfold Pod.isOn
  cases p.phase.isActive <;> simp

theorem showsAs_filter (s : Snapshot) : { s with pods := s.pods.filter (·.phase.isActive) }.ShowsAs s where
  views := by
    intro samples
    simp only [Snapshot.nodeViews, podsOn_filter]
  gpuPods := by
    intro node
    simp only [podsOn_filter]
  report := by
    intro samples details
    simp only [NodeReport.of, Snapshot.nodeViews, podsOn_filter]

/-! ## The two snapshots -/

/-- The snapshot of all pods has the records of all objects. -/
theorem fullSnapshot_eq_ok_iff {w : World} {full : Snapshot} :
    w.fullSnapshot = .ok full ↔ ∃ nodes pods, (w.server.objects .nodes).mapM (fun o => result (Objects.nodeOf o) []) = .ok nodes ∧
      (w.server.objects .pods).mapM (fun o => result (Objects.podOf o) []) = .ok pods ∧
      full = { nodes := Reader.sortedByName nodes, pods := pods, takenAt := w.clock } := by
  have hfull : w.fullSnapshot =
      result (Reader.nodeRecords (w.server.objects .nodes) (w.server.objects .pods)) [] >>= fun records =>
        .ok { nodes := records.1, pods := records.2, takenAt := w.clock } := by
    unfold World.fullSnapshot result
    cases ((Reader.nodeRecords (w.server.objects .nodes) (w.server.objects .pods)).run.run []).1 <;> rfl
  rw [hfull, result_nodeRecords]
  simp only [bind_eq_ok_iff]
  constructor
  · rintro ⟨_, ⟨nodes, hnodes, pods, hpods, hrecords⟩, hs⟩
    cases hrecords
    cases hs
    exact ⟨nodes, pods, hnodes, hpods, rfl⟩
  · rintro ⟨nodes, pods, hnodes, hpods, rfl⟩
    exact ⟨_, ⟨nodes, hnodes, pods, hpods, rfl⟩, rfl⟩

/-- It can be made when all objects have names. -/
theorem exists_fullSnapshot {w : World} (h : w.Named) : ∃ full, w.fullSnapshot = .ok full := by
  rcases mapM_nodeOf (w.server.objects .nodes) with ⟨-, nodes, hnodes⟩ | ⟨⟨o, ho, hnone⟩, -⟩
  · rcases mapM_podOf (w.server.objects .pods) with ⟨-, pods, hpods⟩ | ⟨⟨o, ho, hnone⟩, -⟩
    · exact ⟨_, fullSnapshot_eq_ok_iff.2 ⟨nodes, pods, hnodes, hpods, rfl⟩⟩
    · exact absurd hnone (h.pods o ho)
  · exact absurd hnone (h.nodes o ho)

theorem named_of_listed {w : World} {kind : ObjectKind} {activeOnly : Bool} {objects : List Json}
    (h : ∀ object ∈ w.server.objects kind, Objects.name? object ≠ none) (hlisted : objects = w.listed kind none activeOnly) :
    ∀ object ∈ objects, Objects.name? object ≠ none := by
  intro object hobject
  rw [hlisted] at hobject
  exact h object (List.mem_filter.1 hobject).1

/-- The nodes and pods of a cluster that have names are read just when the server lists them. -/
theorem exists_readNodes_iff {w : World} (h : w.Named) : (∃ part, (readNodes.run w).1 = .ok part) ↔ w.Lists := by
  constructor
  · rintro ⟨part, hpart⟩
    obtain ⟨nodes, pods, _, _, hnodes, hpods, -⟩ := readNodes_eq_ok_iff.1 hpart
    refine ⟨⟨nodes, ?_, hnodes.2⟩, pods, ?_, hpods.2⟩
    · rw [World.answer_listObjects, hnodes.1]
    · rw [World.answer_listObjects, World.answer_listObjects, hpods.1]
  · rintro ⟨⟨nodes, hnodes, hnode⟩, pods, hpods, hpod⟩
    rw [World.answer_listObjects] at hnodes hpods
    rw [World.answer_listObjects] at hpods
    have hnames := named_of_listed h.nodes (World.listed_of_listReply hnodes)
    have hnames' := named_of_listed h.pods ((World.listed_of_listReply hpods).trans (World.listed_afterListing w .pods .nodes none true))
    rcases mapM_nodeOf nodes with ⟨-, nodes', hnodes'⟩ | ⟨⟨o, ho, hnone⟩, -⟩
    · rcases mapM_podOf pods with ⟨-, pods', hpods'⟩ | ⟨⟨o, ho, hnone⟩, -⟩
      · exact ⟨_, readNodes_eq_ok_iff.2 ⟨nodes, pods, nodes', pods', ⟨hnodes, hnode⟩, ⟨hpods, hpod⟩, hnodes', hpods', rfl⟩⟩
      · exact absurd hnone (hnames' o ho)
    · exact absurd hnone (hnames o ho)

/-- What is read is the snapshot of all pods, less those that have finished. -/
theorem eq_of_readNodes {w : World} {part full : Snapshot} (hpart : (readNodes.run w).1 = .ok part)
    (hfull : w.fullSnapshot = .ok full) : part = { full with pods := full.pods.filter (·.phase.isActive) } := by
  obtain ⟨_, _, _, _, ⟨hnodes, -⟩, ⟨hpods, -⟩, hread, hread', rfl⟩ := readNodes_eq_ok_iff.1 hpart
  obtain ⟨nodes', pods', hnodes', hpods', rfl⟩ := fullSnapshot_eq_ok_iff.1 hfull
  have hunfinished : w.listed .pods none true = (w.server.objects .pods).filter Server.isUnfinished := by simp [World.listed]
  obtain rfl := World.listed_of_listReply hnodes
  obtain rfl := World.listed_of_listReply hpods
  rw [World.listed_afterListing, hunfinished, mapM_filter (fun _ _ hp => isUnfinished_eq_isActive hp) hpods'] at hread'
  rw [World.listed_all, hnodes'] at hread
  cases hread
  cases hread'
  rfl

end FinishedPodsAux

open FinishedPodsAux

/-- When all nodes and pods of a cluster have names, a snapshot can be made from all of them. Nodes are read just when the server lists them
with the pods that have not finished; what is read is then that snapshot without the pods that have finished, and it shows the same as
the snapshot does: each view, the pods that ask for GPUs, each row and the totals. -/
theorem unlisted_pods_unseen (w : World) (h : w.Named) :
    ∃ full, w.fullSnapshot = .ok full ∧ ((∃ part, (readNodes.run w).1 = .ok part) ↔ w.Lists) ∧
      ∀ part, (readNodes.run w).1 = .ok part →
        part = { full with pods := full.pods.filter (·.phase.isActive) } ∧ part.ShowsAs full := by
  obtain ⟨full, hfull⟩ := exists_fullSnapshot h
  refine ⟨full, hfull, exists_readNodes_iff h, ?_⟩
  intro part hpart
  have hless := eq_of_readNodes hpart hfull
  refine ⟨hless, ?_⟩
  rw [hless]
  exact showsAs_filter full

/-- A node and a pod on it in each phase, without a phase, and with a phase that nobody knows. -/
def World.phases : World :=
  let pod (status : List (String × Json)) : Json :=
    .object [("metadata", .object [("name", .string "pod")]), ("spec", .object [("nodeName", .string "one")]),
      ("status", .object status)]
  { server := { objects := fun
      | .nodes => [.object [("metadata", .object [("name", .string "one")])]]
      | .pods => pod [] :: ["Pending", "Running", "Succeeded", "Failed", "Unknown", "succeeded"].map fun phase =>
          pod [("phase", .string phase)]
      | _ => [] } }

/-- Of these pods five are read, and they show the same as all seven. -/
theorem unlisted_pods_unseen_of_phases :
    World.phases.Named ∧ ∃ full part, World.phases.fullSnapshot = .ok full ∧ (readNodes.run World.phases).1 = .ok part ∧
      full.pods.length = 7 ∧ part.pods.length = 5 ∧ part.ShowsAs full := by
  have h : World.phases.Named := ⟨by decide, by decide⟩
  obtain ⟨full, hfull, -, hpart⟩ := unlisted_pods_unseen World.phases h
  obtain ⟨-, hshows⟩ := hpart _ rfl
  refine ⟨h, full, _, hfull, rfl, ?_, rfl, hshows⟩
  cases hfull
  rfl

end TrainingJobs

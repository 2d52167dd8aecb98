import Mathlib.Data.List.Forall2
import TrainingJobs.Node.Report

/-!
# Every node counts its own pods

A pod holds resources of the node it is bound to until it has finished (`Pod.HoldsOn`). The view of a node adds up what just
these pods contribute (`NodeView.Counts`), and no pod is counted on two nodes or on none that is listed. So nothing that is shown
of a node depends on any other pod (`nodes_count_own_pods`).
-/

namespace TrainingJobs

/-- A pod has not finished and is bound to a node. -/
def Pod.HoldsOn (p : Pod) (node : String) : Prop := p.phase ≠ .succeeded ∧ p.phase ≠ .failed ∧ p.nodeName = some node

instance (p : Pod) (node : String) : Decidable (p.HoldsOn node) := inferInstanceAs (Decidable (_ ∧ _ ∧ _))

/-- The pods of a snapshot that hold resources of a node, in their order. -/
def Snapshot.podsHolding (s : Snapshot) (node : String) : List Pod := s.pods.filter (·.HoldsOn node)

/-- The view of a node adds up what some pods contribute, from the first to the last. -/
structure NodeView.Counts (node : Node) (pods : List Pod) (v : NodeView) : Prop where
  name : v.name = node.name
  requested : v.resources.requested = Resources.sum (pods.map (·.contribution.requested))
  limited : v.resources.limited = Resources.sum (pods.map (·.contribution.limited))
  allocated : v.resources.allocated = Resources.sum (pods.map (·.contribution.allocated))

namespace NodeSharesAux

/-! ## The pods of a node -/

theorem isOn_iff {p : Pod} {node : String} : p.isOn node = true ↔ p.HoldsOn node := by
  unfold Pod.isOn Pod.HoldsOn
  cases p.phase <;> simp [PodPhase.isActive]

theorem podsOn_eq (s : Snapshot) (node : String) : podsOn node s.pods = s.podsHolding node :=
  List.filter_congr fun _ _ => Bool.eq_iff_iff.2 (isOn_iff.trans decide_eq_true_iff.symm)

/-- A pod is bound to one node at most. -/
theorem holdsOn_unique {p : Pod} {a b : String} (ha : p.HoldsOn a) (hb : p.HoldsOn b) : a = b :=
  Option.some.inj (ha.2.2.symm.trans hb.2.2)

/-- The pods of distinct nodes, node by node, are the pods that hold resources of any of them. -/
theorem perm_flatMap_holding {names : List String} (h : names.Nodup) (pods : List Pod) :
    (names.flatMap fun name => pods.filter (·.HoldsOn name)).Perm (pods.filter fun p => ∃ name ∈ names, p.HoldsOn name) := by
  induction names with
  | nil => simp
  | cons name rest ih =>
    obtain ⟨hname, hrest⟩ := List.nodup_cons.1 h
    -- Among the pods of all these nodes, those of the first one come apart from those of the others.
    have hfirst : (pods.filter fun p => ∃ n ∈ name :: rest, p.HoldsOn n).filter (·.HoldsOn name) =
        pods.filter (·.HoldsOn name) := by
      rw [List.filter_filter]
      refine List.filter_congr fun p _ => ?_
      by_cases hp : p.HoldsOn name <;> simp [hp]
    have hothers : (pods.filter fun p => ∃ n ∈ name :: rest, p.HoldsOn n).filter (fun p => !decide (p.HoldsOn name)) =
        pods.filter fun p => ∃ n ∈ rest, p.HoldsOn n := by
      rw [List.filter_filter]
      refine List.filter_congr fun p _ => ?_
      by_cases hp : p.HoldsOn name
      · have hnone : ¬∃ n ∈ rest, p.HoldsOn n := fun ⟨n, hn, hpn⟩ => hname (holdsOn_unique hp hpn ▸ hn)
        simp [hp, hnone]
      · simp [hp]
    have hsplit := List.filter_append_perm (fun p => decide (p.HoldsOn name))
      (pods.filter fun p => ∃ n ∈ name :: rest, p.HoldsOn n)
    rw [hfirst, hothers] at hsplit
    exact (List.Perm.append_left _ (ih hrest)).trans hsplit

/-! ## The view of a node -/

/-- Counting pods adds up what they contribute, and changes nothing else. -/
theorem foldl_addPod (r : NodeResources) (pods : List Pod) :
    pods.foldl NodeResources.addPod r =
      { r with
        requested := (pods.map (·.contribution.requested)).foldl (· + ·) r.requested
        limited := (pods.map (·.contribution.limited)).foldl (· + ·) r.limited
        allocated := (pods.map (·.contribution.allocated)).foldl (· + ·) r.allocated } := by
  induction pods generalizing r with
  | nil => rfl
  | cons p rest ih => exact ih (r.addPod p)

/-- Before pods are counted, no resource of a node is in use. -/
theorem unused_ofNode (n : Node) :
    (NodeResources.ofNode n).requested = .zero ∧ (NodeResources.ofNode n).limited = .zero ∧
      (NodeResources.ofNode n).allocated = .zero := by
  unfold NodeResources.ofNode
  split <;> exact ⟨rfl, rfl, rfl⟩

/-- The view of a node counts the pods that it is made from, whatever the metrics say. -/
theorem counts_of (n : Node) (pods : List Pod) (sample : Option Sample) : (NodeView.of n pods sample).Counts n pods := by
  obtain ⟨hrequested, hlimited, hallocated⟩ := unused_ofNode n
  have hcounted := foldl_addPod (NodeResources.ofNode n) pods
  rw [hrequested, hlimited, hallocated] at hcounted
  cases sample <;> constructor <;> simp only [NodeView.of, NodeResources.withSample, hcounted, Resources.sum]

theorem forall₂_counts_nodeViews (s : Snapshot) :
    s.nodes.Forall₂ (fun n v => v.Counts n (s.podsHolding n.name)) s.nodeViews := by
  unfold Snapshot.nodeViews
  induction s.nodes with
  | nil => exact .nil
  | cons n rest ih =>
    refine .cons ?_ ih
    rw [← podsOn_eq]
    exact counts_of _ _ _

/-! ## What is shown of a node -/

/-- Of elements with distinct names just one has the name of a given one. -/
theorem filter_name_eq_singleton {α : Type} {name : α → String} {items : List α} (h : (items.map name).Nodup) {a : α}
    (ha : a ∈ items) : items.filter (name · == name a) = [a] := by
  induction items with
  | nil => cases ha
  | cons b rest ih =>
    obtain ⟨hb, hrest⟩ := List.nodup_cons.1 h
    rcases List.mem_cons.1 ha with rfl | ha
    · have hnone : rest.filter (name · == name a) = [] := by
        refine List.filter_eq_nil_iff.2 fun c hc heq => hb ?_
        rw [← eq_of_beq heq]
        exact List.mem_map_of_mem hc
      rw [List.filter_cons, if_pos (beq_self_eq_true _), hnone]
    · have hne : ¬(name b == name a) = true := fun heq => hb (by rw [eq_of_beq heq]; exact List.mem_map_of_mem ha)
      rw [List.filter_cons, if_neg hne, ih hrest ha]

/-- A key that no binding has keeps its value when the bindings are put in. -/
theorem get?_insertAll_of_not_mem {ν : Type} {k : String} {bindings : List (String × ν)} (t : SortedTable String ν)
    (h : k ∉ bindings.map (·.1)) : (t.insertAll bindings).get? k = t.get? k := by
  induction bindings generalizing t with
  | nil => rfl
  | cons e rest ih =>
    obtain ⟨hk, hrest⟩ := not_or.1 (mt List.mem_cons.2 h)
    have hother : compare k e.1 ≠ .eq := fun heq => hk (Std.LawfulEqOrd.eq_of_compare heq)
    calc ((t.insert e.1 e.2).insertAll rest).get? k = (t.insert e.1 e.2).get? k := ih _ hrest
      _ = t.get? k := by rw [SortedTable.get?_insert, if_neg hother]

/-- A table made from bindings with distinct keys has each of them. -/
theorem get?_insertAll_of_mem {ν : Type} {k : String} {v : ν} {bindings : List (String × ν)} (t : SortedTable String ν)
    (hnodup : (bindings.map (·.1)).Nodup) (h : (k, v) ∈ bindings) : (t.insertAll bindings).get? k = some v := by
  induction bindings generalizing t with
  | nil => cases h
  | cons e rest ih =>
    obtain ⟨he, hrest⟩ := List.nodup_cons.1 hnodup
    rcases List.mem_cons.1 h with rfl | h
    · calc ((t.insert k v).insertAll rest).get? k = (t.insert k v).get? k := get?_insertAll_of_not_mem _ he
        _ = some v := SortedTable.get?_insert_self _ _ _
    · exact ih _ hrest h

/-- What is shown of a node of a snapshot with distinct names: its view, its row, and with details the pods on it that ask for
GPUs. -/
theorem shown_of_node {s : Snapshot} (h : (s.nodes.map (·.name)).Nodup) {n : Node} (hn : n ∈ s.nodes) (details : Bool) :
    s.nodeViews.filter (·.name == n.name) = [NodeView.of n (s.podsHolding n.name) (s.metrics.get? n.name)] ∧
      (NodeReport.of s details).nodes.filter (·.name == n.name) =
        [NodeRow.ofView (NodeView.of n (s.podsHolding n.name) (s.metrics.get? n.name))] ∧
      (NodeReport.of s details).gpuPods.get? n.name =
        if details then some ((gpuPods (s.podsHolding n.name)).map GpuPodRow.ofPod) else none := by
  have hnode : s.nodes.filter (·.name == n.name) = [n] := filter_name_eq_singleton h hn
  have hviews : s.nodeViews.filter (·.name == n.name) =
      [NodeView.of n (s.podsHolding n.name) (s.metrics.get? n.name)] := by
    have hfilter : ((·.name == n.name) ∘ fun m => NodeView.of m (podsOn m.name s.pods) (s.metrics.get? m.name)) =
        fun m : Node => m.name == n.name := rfl
    rw [Snapshot.nodeViews, List.filter_map, hfilter, hnode, List.map_singleton, podsOn_eq]
  refine ⟨hviews, ?_, ?_⟩
  · have hfilter : ((·.name == n.name) ∘ NodeRow.ofView) = fun v : NodeView => v.name == n.name := rfl
    change (s.nodeViews.map NodeRow.ofView).filter (·.name == n.name) = _
    rw [List.filter_map, hfilter, hviews, List.map_singleton]
  · cases details with
    | false => rfl
    | true =>
      refine get?_insertAll_of_mem _ ?_ (List.mem_map.2 ⟨n, hn, ?_⟩)
      · rw [List.map_map]
        exact h
      · rw [podsOn_eq]

end NodeSharesAux

open NodeSharesAux

/-- A snapshot whose nodes have distinct names gives one view for each node, in their order, that counts the pods holding
resources of it; all views together count each pod that holds resources of a listed node once. What is shown of a node is the
same in any other such snapshot that has the node, its metrics and its pods. -/
theorem nodes_count_own_pods (s : Snapshot) (h : (s.nodes.map (·.name)).Nodup) :
    s.nodes.Forall₂ (fun n v => v.Counts n (s.podsHolding n.name)) s.nodeViews ∧
      (s.nodeViews.flatMap fun v => s.podsHolding v.name).Perm (s.pods.filter fun p => ∃ n ∈ s.nodes, p.HoldsOn n.name) ∧
      ∀ s' : Snapshot, (s'.nodes.map (·.name)).Nodup → ∀ n ∈ s.nodes, n ∈ s'.nodes →
        s'.metrics.get? n.name = s.metrics.get? n.name → s'.podsHolding n.name = s.podsHolding n.name →
          ∃ view, s.nodeViews.filter (·.name == n.name) = [view] ∧ s'.nodeViews.filter (·.name == n.name) = [view] ∧
            ∀ details, (NodeReport.of s details).nodes.filter (·.name == n.name) = [NodeRow.ofView view] ∧
              (NodeReport.of s' details).nodes.filter (·.name == n.name) = [NodeRow.ofView view] ∧
              (NodeReport.of s details).gpuPods.get? n.name =
                (if details then some ((gpuPods (s.podsHolding n.name)).map GpuPodRow.ofPod) else none) ∧
              (NodeReport.of s' details).gpuPods.get? n.name = (NodeReport.of s details).gpuPods.get? n.name := by
  refine ⟨forall₂_counts_nodeViews s, ?_, fun s' h' n hn hn' hmetrics hpods => ?_⟩
  · have hnames : (s.nodeViews.flatMap fun v => s.podsHolding v.name) =
        (s.nodes.map (·.name)).flatMap fun name => s.pods.filter (·.HoldsOn name) := by
      rw [Snapshot.nodeViews, List.flatMap_map, List.flatMap_map]
      rfl
    have hlisted : (s.pods.filter fun p => ∃ n ∈ s.nodes, p.HoldsOn n.name) =
        s.pods.filter fun p => ∃ name ∈ s.nodes.map (·.name), p.HoldsOn name := by
      refine List.filter_congr fun p _ => decide_eq_decide.2 ⟨?_, ?_⟩
      · rintro ⟨n, hn, hp⟩
        exact ⟨n.name, List.mem_map_of_mem hn, hp⟩
      · rintro ⟨name, hname, hp⟩
        obtain ⟨n, hn, rfl⟩ := List.mem_map.1 hname
        exact ⟨n, hn, hp⟩
    rw [hnames, hlisted]
    exact perm_flatMap_holding h s.pods
  · have hviews := (shown_of_node h hn false).1
    have hviews' := (shown_of_node h' hn' false).1
    rw [hmetrics, hpods] at hviews'
    refine ⟨_, hviews, hviews', fun details => ?_⟩
    obtain ⟨-, hrow, hgpu⟩ := shown_of_node h hn details
    obtain ⟨-, hrow', hgpu'⟩ := shown_of_node h' hn' details
    rw [hmetrics, hpods] at hrow'
    rw [hpods] at hgpu'
    exact ⟨hrow, hrow', hgpu, hgpu'.trans hgpu.symm⟩

/-- Two nodes and a pod of each phase on the first. -/
def Snapshot.mixed : Snapshot :=
  { nodes := [{ name := "one", ready := true }, { name := "two" }]
    pods := [.pending, .running, .succeeded, .failed, .unknown].map fun phase =>
      { name := "pod", nodeName := some "one", phase := phase } }

/-- The first node behind another one, with the same pods that hold resources of it among others: one that has finished, one on
each other node, and one that is not bound. -/
def Snapshot.crowded : Snapshot :=
  { nodes := [{ name := "three" }, { name := "one", ready := true }]
    pods := ([.pending, .running, .unknown, .succeeded].map fun phase =>
        { name := "pod", nodeName := some "one", phase := phase }) ++
      [some "two", some "three", none].map fun node => { name := "other", nodeName := node, phase := .running } }

/-- Both snapshots show the same of their common node. -/
theorem nodes_count_own_pods_crowded :
    (Snapshot.mixed.nodes.map (·.name)).Nodup ∧ (Snapshot.crowded.nodes.map (·.name)).Nodup ∧
      ∃ view, Snapshot.mixed.nodeViews.filter (·.name == "one") = [view] ∧
        Snapshot.crowded.nodeViews.filter (·.name == "one") = [view] := by
  have h : (Snapshot.mixed.nodes.map (·.name)).Nodup := by decide
  have h' : (Snapshot.crowded.nodes.map (·.name)).Nodup := by decide
  have hn : { name := "one", ready := true } ∈ Snapshot.mixed.nodes := List.mem_cons_self
  have hn' : { name := "one", ready := true } ∈ Snapshot.crowded.nodes := List.mem_cons_of_mem _ List.mem_cons_self
  obtain ⟨-, -, hshown⟩ := nodes_count_own_pods Snapshot.mixed h
  obtain ⟨view, hview, hview', -⟩ := hshown Snapshot.crowded h' _ hn hn' rfl rfl
  exact ⟨h, h', view, hview, hview'⟩

end TrainingJobs

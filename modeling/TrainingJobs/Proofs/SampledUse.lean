import TrainingJobs.Proofs.NodeReadings
import TrainingJobs.Proofs.NodeShares

/-!
# What metrics can change

The sample of a node is put in when the pods have been counted (`of_eq_withSample`), and it reaches five figures of the node's row and
nothing else. So reports made with different metrics differ in these figures only, and each of them is told by one part of the node's own
sample; a source of metrics that fails is as good as one that knows nothing (`samples_reach_use_only`).
-/

namespace TrainingJobs

/-- A row without the figures that metrics tell: what is in use, and how much GPU memory there is. -/
def NodeRow.withoutUse (r : NodeRow) : NodeRow :=
  { r with
    cpu := { r.cpu with usage := 0 }
    gpu := { r.gpu with usage := 0 }
    memory := { r.memory with usage := 0 }
    gpuMemory := { capacity := 0, usage := 0 } }

/-- Two reports differ in no more than the figures that metrics tell. -/
structure NodeReport.SameButUse (r r' : NodeReport) : Prop where
  rows : r.nodes.map NodeRow.withoutUse = r'.nodes.map NodeRow.withoutUse
  totals : r.totals = r'.totals
  summary : r.totals.summary = r'.totals.summary
  gpuPods : r.gpuPods = r'.gpuPods

/-- A row of a node shows what its sample says, figure by figure. A figure that is missing is zero, and the amount of GPU memory is then
the node's own. -/
structure NodeRow.ShowsUse (r : NodeRow) (n : Node) (sample : Option Sample) : Prop where
  name : r.name = n.name
  cpu : r.cpu.usage = ((sample.bind (·.usedCpus)).map (·.cores)).getD 0
  memory : r.memory.usage = ((sample.bind (·.usedMemory)).map (·.bytes)).getD 0
  gpu : r.gpu.usage = (sample.bind (·.usedGpus)).getD 0
  gpuMemory : r.gpuMemory.usage = ((sample.bind (·.usedGpuMemory)).map (·.bytes)).getD 0
  gpuMemoryCapacity :
    r.gpuMemory.capacity = ((sample.bind (·.totalGpuMemory)).map (·.bytes)).getD n.capacity.gpuMemory.bytes

/-- A program prints nothing. -/
def Program.Silent {α : Type} (p : Program α) : Prop := ∀ w, (p.run w).2.output = w.output

namespace SampledUseAux

open Commands NodeReadingsAux NodeSharesAux ProjectListsAux

variable {α : Type}

/-! ## Views and rows -/

/-- A view with a sample put in. -/
def sampled (v : NodeView) (sample : Option Sample) : NodeView := { v with resources := v.resources.withSample (sample.getD {}) }

/-- A sample is put in after all else, and no sample is as good as an empty one. -/
theorem of_eq_sampled (n : Node) (pods : List Pod) (sample : Option Sample) :
    NodeView.of n pods sample = sampled (NodeView.of n pods none) sample := by
  cases sample <;> rfl

theorem nodeViews_eq_sampled (s : Snapshot) :
    s.nodeViews = s.nodes.map fun n => sampled (NodeView.of n (podsOn n.name s.pods) none) (s.metrics.get? n.name) :=
  List.map_congr_left fun n _ => of_eq_sampled n _ _

theorem withoutUse_sampled (v : NodeView) (sample : Option Sample) :
    (NodeRow.ofView (sampled v sample)).withoutUse = (NodeRow.ofView v).withoutUse := rfl

/-- No total is made of a figure that a sample tells. -/
theorem add_sampled (t : ClusterTotals) (v : NodeView) (sample : Option Sample) : t.add (sampled v sample) = t.add v := rfl

/-- Without a sample nothing is in use on a node, whatever pods are counted, and its GPU memory is what it says. -/
theorem unsampled_of (n : Node) (pods : List Pod) :
    (NodeView.of n pods none).resources.usage = {} ∧
      (NodeView.of n pods none).resources.capacity.gpuMemory = n.capacity.gpuMemory := by
  have hnode : (NodeResources.ofNode n).usage = {} ∧ (NodeResources.ofNode n).capacity.gpuMemory = n.capacity.gpuMemory := by
    unfold NodeResources.ofNode
    split <;> exact ⟨rfl, rfl⟩
  simp only [NodeView.of, foldl_addPod]
  exact hnode

/-- A figure of a sample stands for the value there was before, which stays when the figure is missing. -/
theorem figure_told (figure : Sample → Option α) (h : figure {} = none) (sample : Option Sample) (shown : α → Float) (before : α) :
    shown ((figure (sample.getD {})).getD before) = ((sample.bind figure).map shown).getD (shown before) := by
  cases sample with
  | none =>
    rw [Option.getD_none, h]
    rfl
  | some s => exact (Option.getD_map shown before (figure s)).symm

/-- The row of a node shows its sample. -/
theorem showsUse_of (n : Node) (pods : List Pod) (sample : Option Sample) :
    (NodeRow.ofView (NodeView.of n pods sample)).ShowsUse n sample := by
  obtain ⟨husage, hcapacity⟩ := unsampled_of n pods
  rw [of_eq_sampled]
  constructor <;> simp only [NodeRow.ofView, sampled, NodeResources.withSample, husage, hcapacity]
  case name => rfl
  case cpu => exact figure_told (·.usedCpus) rfl sample (·.cores) .zero
  case memory => exact figure_told (·.usedMemory) rfl sample (·.bytes) .zero
  case gpu => simpa using figure_told (·.usedGpus) rfl sample id 0
  case gpuMemory => exact figure_told (·.usedGpuMemory) rfl sample (·.bytes) .zero
  case gpuMemoryCapacity => exact figure_told (·.totalGpuMemory) rfl sample (·.bytes) n.capacity.gpuMemory

/-! ## Reports -/

/-- The report on a snapshot, with its rows and its totals made before the samples are put in. -/
theorem report_of (s : Snapshot) (details : Bool) :
    (NodeReport.of s details).nodes.map NodeRow.withoutUse =
        s.nodes.map (fun n => (NodeRow.ofView (NodeView.of n (podsOn n.name s.pods) none)).withoutUse) ∧
      (NodeReport.of s details).totals =
        ClusterTotals.of (s.nodes.map fun n => NodeView.of n (podsOn n.name s.pods) none) := by
  constructor
  · change (s.nodeViews.map NodeRow.ofView).map NodeRow.withoutUse = _
    rw [nodeViews_eq_sampled, List.map_map, List.map_map]
    exact List.map_congr_left fun n _ => withoutUse_sampled _ _
  · change ClusterTotals.of s.nodeViews = _
    rw [nodeViews_eq_sampled]
    simp only [ClusterTotals.of, List.foldl_map, add_sampled]

/-- Reports made with different samples differ in what the samples tell, and in no more. -/
theorem sameButUse_of (s : Snapshot) (details : Bool) (samples samples' : Samples) :
    (NodeReport.of { s with metrics := samples } details).SameButUse (NodeReport.of { s with metrics := samples' } details) := by
  obtain ⟨hrows, htotals⟩ := report_of { s with metrics := samples } details
  obtain ⟨hrows', htotals'⟩ := report_of { s with metrics := samples' } details
  have hsame : (NodeReport.of { s with metrics := samples } details).totals =
      (NodeReport.of { s with metrics := samples' } details).totals := htotals.trans htotals'.symm
  exact ⟨hrows.trans hrows'.symm, hsame, congrArg ClusterTotals.summary hsame, rfl⟩

theorem forall₂_showsUse (s : Snapshot) (details : Bool) :
    s.nodes.Forall₂ (fun n row => row.ShowsUse n (s.metrics.get? n.name)) (NodeReport.of s details).nodes := by
  change s.nodes.Forall₂ _ (s.nodeViews.map NodeRow.ofView)
  unfold Snapshot.nodeViews
  rw [List.map_map]
  induction s.nodes with
  | nil => exact .nil
  | cons n rest ih => exact .cons (showsUse_of n _ _) ih

/-! ## Sources that fail -/

/-- What asks for nothing but samples prints nothing. -/
theorem silent_of_sends {p : Program α} (hp : Sends AsksSamples p) : p.Silent := by
  induction p with
  | done a => exact fun w => rfl
  | send r next ih =>
    intro w
    have hanswer : (w.answer r).2.output = w.output := by
      cases hp.1 with
      | query address expression => rfl
      | list => rw [World.answer_listObjects, World.output_afterListing]
    rw [Program.run_send, ih _ (hp.2 _), hanswer]

theorem silent_read (source : MetricsSource) : source.read.Silent := silent_of_sends (sends_read source)

/-- A reading of nodes knows no samples. -/
theorem metrics_of_readNodes {w : World} {s : Snapshot} (h : (readNodes.run w).1 = .ok s) : s.metrics = .empty := by
  obtain ⟨_, _, _, _, -, -, -, -, rfl⟩ := readNodes_eq_ok_iff.1 h
  rfl

/-- A source that prints nothing and fails is as good as one that knows nothing. -/
theorem topNodes_of_error {w : World} {metrics : Program (Except ApiError Samples)} {e : ApiError} (hsilent : metrics.Silent)
    (hfails : (metrics.run (readNodes.run w).2).1 = .error e) (details : Bool) (format : OutputFormat) :
    ShowSame (topNodes readNodes metrics details format) w (topNodes readNodes (pure (.ok .empty)) details format) w := by
  simp only [ShowSame, topNodes, Program.bind_eq, Program.pure_eq, Program.run_andThen]
  cases hread : (readNodes.run w).1 with
  | error e => exact ⟨rfl, rfl⟩
  | ok s =>
    have hsame : { s with metrics := .empty } = s := by rw [← metrics_of_readNodes hread]
    simp only [Program.run_andThen, Program.run_done, hfails, hsame]
    refine ⟨trivial, ?_⟩
    change (metrics.run (readNodes.run w).2).2.output ++ _ = (readNodes.run w).2.output ++ _
    rw [hsilent]

end SampledUseAux

open Commands SampledUseAux

/-- Whatever two sets of samples say, the reports made of a snapshot with them, with details or without, differ in five figures of each
row only, and each row shows the sample of its own node. And if a source of samples fails, and has printed nothing, then what is printed
of nodes is what is printed when there are no samples. -/
theorem samples_reach_use_only (s : Snapshot) (details : Bool) :
    (∀ samples samples' : Samples,
      (NodeReport.of { s with metrics := samples } details).SameButUse (NodeReport.of { s with metrics := samples' } details)) ∧
      s.nodes.Forall₂ (fun n row => row.ShowsUse n (s.metrics.get? n.name)) (NodeReport.of s details).nodes ∧
      (∀ source : MetricsSource, source.read.Silent) ∧
      ∀ (w : World) (metrics : Program (Except ApiError Samples)) (e : ApiError) (format : OutputFormat),
        metrics.Silent → (metrics.run (readNodes.run w).2).1 = .error e →
          ShowSame (topNodes readNodes metrics details format) w (topNodes readNodes (pure (.ok .empty)) details format) w :=
  ⟨sameButUse_of s details, forall₂_showsUse s details, silent_read,
    fun _ _ _ format hsilent hfails => topNodes_of_error hsilent hfails details format⟩

/-- A server with a node that refuses to list samples. -/
def World.unsampled : World :=
  { server :=
      { objects := fun
          | .nodes => [.object [("metadata", .object [("name", .string "one")])]]
          | _ => []
        faults := [{ verb := .list, kind := some .nodeMetrics, status := 503 }] } }

/-- Its node is printed as it is without samples. -/
theorem samples_reach_use_only_unsampled :
    (MetricsSource.cluster.read.run (readNodes.run World.unsampled).2).1 = .error (.status 503) ∧
      MetricsSource.cluster.read.Silent ∧
      ShowSame (topNodes readNodes MetricsSource.cluster.read true .json) World.unsampled
        (topNodes readNodes (pure (.ok .empty)) true .json) World.unsampled := by
  have hfails : (MetricsSource.cluster.read.run (readNodes.run World.unsampled).2).1 = .error (.status 503) := by rfl
  obtain ⟨-, -, hsilent, hprinted⟩ := samples_reach_use_only {} true
  exact ⟨hfails, hsilent .cluster, hprinted World.unsampled _ _ .json (hsilent .cluster) hfails⟩

end TrainingJobs

import Mathlib.Data.List.Nodup
import Mathlib.Data.List.Perm.Basic
import TrainingJobs.Proofs.NodeReadings

/-!
# The order in which nodes are listed

A server may list its nodes in any order. A reading sorts them by name, and nodes with distinct names can be sorted in one way only
(`sortedByName_perm`); whatever comes behind the reading asks for no nodes any more (`Program.OverlooksNodes`). So the order makes no
difference to what is read and to what is printed of nodes (`listing_order_unseen`).
-/

namespace TrainingJobs

/-- The same world, but that its server lists other nodes. -/
def World.withNodes (w : World) (nodes : List Json) : World :=
  { w with server := { w.server with objects := fun kind => if kind = .nodes then nodes else w.server.objects kind } }

/-- Only the nodes that their servers list, and their logs, tell two worlds apart. -/
def World.Alike (w w' : World) : Prop := ∃ nodes log, w' = { w.withNodes nodes with log := log }

/-- A program does the same in worlds that are alike. -/
def Program.OverlooksNodes {α : Type} (p : Program α) : Prop :=
  ∀ w w', w.Alike w' → (p.run w').1 = (p.run w).1 ∧ (p.run w).2.Alike (p.run w').2

namespace NodeOrderAux

open ProjectListsAux NodeReadingsAux RequestAux Commands

variable {α β : Type}

/-! ## Sorting by name -/

theorem sortedByName_pairwise (nodes : List Node) :
    (Reader.sortedByName nodes).Pairwise fun a b => (compare a.name b.name).isLE = true := by
  refine List.pairwise_mergeSort ?_ ?_ nodes
  · intro a b c hab hbc
    exact Std.TransCmp.isLE_trans hab hbc
  · intro a b
    have hswap : compare b.name a.name = (compare a.name b.name).swap := Std.OrientedCmp.eq_swap
    rw [hswap]
    cases compare a.name b.name <;> rfl

/-- Nodes with distinct names are sorted in the same way in whatever order they come. -/
theorem sortedByName_perm {nodes nodes' : List Node} (hperm : nodes'.Perm nodes) (hnames : (nodes.map (·.name)).Nodup) :
    Reader.sortedByName nodes' = Reader.sortedByName nodes := by
  have hsorted : ∀ ns : List Node, (Reader.sortedByName ns).Perm ns := fun ns => List.mergeSort_perm ns _
  refine List.Perm.eq_of_pairwise ?_ (sortedByName_pairwise nodes') (sortedByName_pairwise nodes)
    ((hsorted nodes').trans (hperm.trans (hsorted nodes).symm))
  intro a b ha hb hab hba
  have ha' : a ∈ nodes := hperm.mem_iff.1 ((hsorted nodes').mem_iff.1 ha)
  have hb' : b ∈ nodes := (hsorted nodes).mem_iff.1 hb
  have hname : a.name = b.name := Std.LawfulEqOrd.eq_of_compare (Std.OrientedCmp.isLE_antisymm hab hba)
  exact List.inj_on_of_nodup_map hnames ha' hb' hname

/-- They are then in ascending order of their names. -/
theorem sortedByName_ascending {nodes : List Node} (hnames : (nodes.map (·.name)).Nodup) :
    (Reader.sortedByName nodes).Pairwise fun a b => compare a.name b.name = .lt := by
  have hperm : (Reader.sortedByName nodes).Perm nodes := List.mergeSort_perm nodes _
  have hdistinct : ((Reader.sortedByName nodes).map (·.name)).Nodup := (hperm.map (·.name)).nodup_iff.2 hnames
  refine ((sortedByName_pairwise nodes).and (List.pairwise_map.1 hdistinct)).imp ?_
  rintro a b ⟨hle, hne⟩
  cases hcompare : compare a.name b.name with
  | lt => rfl
  | eq => exact absurd (Std.LawfulEqOrd.eq_of_compare hcompare) hne
  | gt =>
    rw [hcompare] at hle
    cases hle

/-! ## Reading nodes -/

variable {objects objects' : List Json}

/-- What is read of nodes has the names of their objects. -/
theorem names_of_mapM {nodes : List Node} (h : objects.mapM (fun o => result (Objects.nodeOf o) []) = .ok nodes) :
    nodes.map (·.name) = objects.filterMap Objects.name? := by
  have hread := mapM_eq_ok_iff.1 h
  clear h
  induction hread with
  | nil => rfl
  | @cons o n _ _ hn _ ih =>
    rcases nodeOf_cases o [] with ⟨n', hname, hn'⟩ | ⟨-, herror⟩
    · obtain rfl : n' = n := Except.ok.inj (hn'.symm.trans hn)
      rw [List.map_cons, List.filterMap_cons_some hname, ih]
    · cases herror.symm.trans hn

/-- Nodes that are listed in another order are read in another order. -/
theorem mapM_perm {nodes : List Node} (hperm : objects'.Perm objects)
    (h : objects.mapM (fun o => result (Objects.nodeOf o) []) = .ok nodes) :
    ∃ nodes', objects'.mapM (fun o => result (Objects.nodeOf o) []) = .ok nodes' ∧ nodes'.Perm nodes := by
  obtain ⟨nodes', hread, hperm'⟩ := List.perm_comp_forall₂ hperm (mapM_eq_ok_iff.1 h)
  exact ⟨nodes', mapM_eq_ok_iff.2 hread, hperm'⟩

/-- The records of a snapshot do not depend on the order in which its nodes are listed. -/
theorem nodeRecords_perm (hperm : objects'.Perm objects) (hnames : (objects.filterMap Objects.name?).Nodup) (pods : List Json)
    (notes : List String) :
    result (Reader.nodeRecords objects' pods) notes = result (Reader.nodeRecords objects pods) notes := by
  rw [result_nodeRecords, result_nodeRecords]
  rcases mapM_nodeOf objects with ⟨-, nodes, hnodes⟩ | ⟨⟨o, ho, hname⟩, herror⟩
  · obtain ⟨nodes', hnodes', hperm'⟩ := mapM_perm hperm hnodes
    rw [← names_of_mapM hnodes] at hnames
    rw [hnodes, hnodes']
    change (_ >>= fun pods => Except.ok (Reader.sortedByName nodes', pods)) =
      (_ >>= fun pods => Except.ok (Reader.sortedByName nodes, pods))
    rw [sortedByName_perm hperm' hnames]
  · rcases mapM_nodeOf objects' with ⟨hall, -⟩ | ⟨-, herror'⟩
    · exact absurd hname (hall o (hperm.mem_iff.2 ho))
    · rw [herror, herror']

/-- Objects in another order have the shape of their kind if and only if they had it before. -/
theorem decoded_perm (hperm : objects'.Perm objects) (isOne : Json → Bool) :
    (∃ e, Reader.decoded isOne (.ok objects') = .error e ∧ Reader.decoded isOne (.ok objects) = .error e) ∨
      Reader.decoded isOne (.ok objects') = .ok objects' ∧ Reader.decoded isOne (.ok objects) = .ok objects := by
  unfold Reader.decoded
  dsimp only
  rw [hperm.all_eq]
  by_cases hall : objects.all isOne = true
  · exact .inr ⟨if_pos hall, if_pos hall⟩
  · exact .inl ⟨_, if_neg hall, if_neg hall⟩

theorem alike_withNodes (w : World) (nodes : List Json) : w.Alike (w.withNodes nodes) := ⟨nodes, w.log, rfl⟩

theorem afterListing_alike {w w' : World} (h : w.Alike w') (kind : ObjectKind) :
    (w.afterListing kind).Alike (w'.afterListing kind) := by
  obtain ⟨nodes, log, rfl⟩ := h
  refine ⟨nodes, log, ?_⟩
  unfold World.afterListing
  by_cases hreach : w.reachable = true
  · rw [if_pos hreach]
    exact if_pos hreach
  · rw [if_neg hreach]
    exact if_neg hreach

/-- Worlds that are alike list the same of any kind but nodes. -/
theorem listReply_alike {w w' : World} (h : w.Alike w') {kind : ObjectKind} (hkind : kind ≠ .nodes) (activeOnly : Bool) :
    w'.listReply kind none activeOnly = w.listReply kind none activeOnly := by
  obtain ⟨nodes, log, rfl⟩ := h
  have hlisted : ({ w.withNodes nodes with log := log } : World).listed kind none activeOnly = w.listed kind none activeOnly := by
    simp only [World.listed, World.withNodes, if_neg hkind]
  unfold World.listReply
  rw [hlisted]
  rfl

/-- Nodes with distinct names are read the same in whatever order they are listed. -/
theorem readNodes_withNodes {w : World} {nodes : List Json} (hperm : nodes.Perm (w.server.objects .nodes))
    (hnames : ((w.server.objects .nodes).filterMap Objects.name?).Nodup) :
    (readNodes.run (w.withNodes nodes)).1 = (readNodes.run w).1 ∧
      (readNodes.run w).2.Alike (readNodes.run (w.withNodes nodes)).2 := by
  have halike := afterListing_alike (alike_withNodes w nodes) .nodes
  have hpods := listReply_alike halike (by decide : ObjectKind.pods ≠ .nodes) true
  have hlisted' : (w.withNodes nodes).listed .nodes none false = nodes := World.listed_all _ _
  obtain ⟨hresult, notes, hworld⟩ := run_readNodes w
  obtain ⟨hresult', notes', hworld'⟩ := run_readNodes (w.withNodes nodes)
  constructor
  · rw [hresult, hresult', hpods]
    generalize Reader.decoded isPod ((w.afterListing .nodes).listReply .pods none true) = pods
    unfold World.listReply
    rw [World.listed_all w, hlisted', show (w.withNodes nodes).listError? .nodes = w.listError? .nodes from rfl]
    cases w.listError? .nodes with
    | some e => rfl
    | none =>
      dsimp only
      rcases decoded_perm hperm isNode with ⟨e, he', he⟩ | ⟨hok', hok⟩
      · rw [he, he']
        rfl
      · rw [hok, hok']
        refine congrArg (pods >>= ·) (funext fun pods => ?_)
        rw [nodeRecords_perm hperm hnames]
        rfl
  · obtain ⟨nodes', log, hafter⟩ := afterListing_alike halike .pods
    rw [hworld, hworld', hafter]
    exact ⟨nodes', _, rfl⟩

/-! ## What comes behind a reading -/

theorem overlooks_done (a : α) : (Program.done a).OverlooksNodes := fun _ _ h => ⟨rfl, h⟩

theorem overlooks_andThen {p : Program α} {f : α → Program β} (hp : p.OverlooksNodes) (hf : ∀ a, (f a).OverlooksNodes) :
    (p.andThen f).OverlooksNodes := by
  intro w w' h
  obtain ⟨hresult, hworld⟩ := hp w w' h
  rw [Program.run_andThen, Program.run_andThen, hresult]
  exact hf _ _ _ hworld

theorem overlooks_print (text : String) : (Program.print text).OverlooksNodes := by
  rintro w _ ⟨nodes, log, rfl⟩
  exact ⟨rfl, nodes, log, rfl⟩

/-- A request for samples is answered in the same way by worlds that are alike. -/
theorem answer_alike {w w' : World} (h : w.Alike w') {r : Request} (hr : AsksSamples r) :
    (w'.answer r).1 = (w.answer r).1 ∧ (w.answer r).2.Alike (w'.answer r).2 := by
  cases hr with
  | query address expression =>
    obtain ⟨nodes, log, rfl⟩ := h
    exact ⟨rfl, nodes, log, rfl⟩
  | list =>
    rw [World.answer_listObjects, World.answer_listObjects]
    exact ⟨listReply_alike h (by decide) false, afterListing_alike h .nodeMetrics⟩

/-- Samples are read without a look at nodes. -/
theorem overlooks_of_sends {p : Program α} (hp : Sends AsksSamples p) : p.OverlooksNodes := by
  induction p with
  | done a => exact overlooks_done a
  | send r next ih =>
    intro w w' h
    obtain ⟨hreply, hworld⟩ := answer_alike h hp.1
    rw [Program.run_send, Program.run_send, hreply]
    exact ih _ (hp.2 _) _ _ hworld

/-- Nodes with distinct names are read in ascending order of their names. -/
theorem readNodes_ascending {w : World} {s : Snapshot} (hnames : ((w.server.objects .nodes).filterMap Objects.name?).Nodup)
    (h : (readNodes.run w).1 = .ok s) : s.nodes.Pairwise fun a b => compare a.name b.name = .lt := by
  obtain ⟨objects, _, nodes, _, ⟨hobjects, -⟩, -, hread, -, rfl⟩ := readNodes_eq_ok_iff.1 h
  refine sortedByName_ascending ?_
  rw [names_of_mapM hread, World.listed_of_listReply hobjects, World.listed_all]
  exact hnames

/-- So what is printed of nodes is the same when they are read the same. -/
theorem overlooks_topNodes {w w' : World} (hread : (readNodes.run w').1 = (readNodes.run w).1)
    (h : (readNodes.run w).2.Alike (readNodes.run w').2) (source : MetricsSource) (details : Bool) (format : OutputFormat) :
    ((topNodes readNodes source.read details format).run w').1 = ((topNodes readNodes source.read details format).run w).1 ∧
      ((topNodes readNodes source.read details format).run w).2.Alike
        ((topNodes readNodes source.read details format).run w').2 := by
  simp only [topNodes, Program.bind_eq, Program.run_andThen, hread]
  cases (readNodes.run w).1 with
  | error e => exact overlooks_done _ _ _ h
  | ok s =>
    refine overlooks_andThen (overlooks_of_sends (sends_read source)) (fun samples => ?_) _ _ h
    exact overlooks_andThen (overlooks_print _) fun _ => overlooks_done _

end NodeOrderAux

open Commands NodeOrderAux

/-- In whatever order a server lists nodes with distinct names, the reading gives the same snapshot, or fails in the same way; the nodes in
it and the rows made of them are in ascending order of their names. And whatever the metrics say, in each format, with details and without
them, the same is printed. -/
theorem listing_order_unseen (w : World) (nodes : List Json) (hperm : nodes.Perm (w.server.objects .nodes))
    (hnames : ((w.server.objects .nodes).filterMap Objects.name?).Nodup) :
    (readNodes.run (w.withNodes nodes)).1 = (readNodes.run w).1 ∧
      (∀ s, (readNodes.run w).1 = .ok s → (s.nodes.Pairwise fun a b => compare a.name b.name = .lt) ∧
        ∀ samples details, (NodeReport.of { s with metrics := samples } details).nodes.Pairwise fun a b =>
          compare a.name b.name = .lt) ∧
      ∀ (source : MetricsSource) (details : Bool) (format : OutputFormat),
        ShowSame (topNodes readNodes source.read details format) (w.withNodes nodes)
          (topNodes readNodes source.read details format) w := by
  obtain ⟨hread, halike⟩ := readNodes_withNodes hperm hnames
  refine ⟨hread, ?_, ?_⟩
  · intro s hs
    have hascending := readNodes_ascending hnames hs
    refine ⟨hascending, ?_⟩
    intro samples details
    exact List.pairwise_map.2 (List.pairwise_map.2 hascending)
  · intro source details format
    obtain ⟨hresult, nodes', log, hworld⟩ := overlooks_topNodes hread halike source details format
    refine ⟨hresult, ?_⟩
    rw [hworld]
    rfl

/-- Three nodes that are not listed by name. -/
def World.unsorted : World :=
  { server := { objects := fun
      | .nodes => ["two", "one", "three"].map fun name => .object [("metadata", .object [("name", .string name)])]
      | _ => [] } }

/-- Listed the other way round they are read and printed the same. -/
theorem listing_order_unseen_of_reverse :
    let reversed := (World.unsorted.server.objects .nodes).reverse
    reversed.Perm (World.unsorted.server.objects .nodes) ∧
      ((World.unsorted.server.objects .nodes).filterMap Objects.name?).Nodup ∧
      (readNodes.run (World.unsorted.withNodes reversed)).1 = (readNodes.run World.unsorted).1 ∧
      ∃ s, (readNodes.run World.unsorted).1 = .ok s ∧ s.nodes.map (·.name) = ["one", "three", "two"] := by
  have hperm := List.reverse_perm (World.unsorted.server.objects .nodes)
  have hnames : ((World.unsorted.server.objects .nodes).filterMap Objects.name?).Nodup := by decide
  obtain ⟨hread, -, -⟩ := listing_order_unseen World.unsorted _ hperm hnames
  refine ⟨hperm, hnames, hread, _, rfl, ?_⟩
  -- sorting is by a recursion that does not compute, so its comparisons are given
  have htwo : compare "two" "one" = .gt ∧ compare "two" "three" = .gt := by decide
  have hone : compare "one" "three" = .lt := by decide
  simp [Reader.sortedByName, List.mergeSort, List.MergeSort.Internal.splitInTwo, htwo, hone]

end TrainingJobs

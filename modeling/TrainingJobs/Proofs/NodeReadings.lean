import TrainingJobs.Commands
import TrainingJobs.Proofs.AcceptedRequests
import TrainingJobs.Proofs.Listings
import TrainingJobs.Proofs.ProjectLists

/-!
# What a reading of nodes gives

A reading of nodes fails when one of its listings does, when an object has not the shape of its kind, or when one has no name: no other
field can be missing (`nodeOf_cases`, `podOf_cases`). Otherwise it gives the records of what was listed (`run_readNodes`).
-/

namespace TrainingJobs

/-- The name that an object gives. -/
def Objects.name? (object : Json) : Option String := textField? "name" (metadataOf object)

/-- Two commands, each in a world of its own, end in the same way and leave the same output. -/
def Commands.ShowSame (command : Command) (w : World) (command' : Command) (w' : World) : Prop :=
  (command.run w).1 = (command'.run w').1 ∧ (command.run w).2.output = (command'.run w').2.output

namespace NodeReadingsAux

open ProjectListsAux RequestAux

variable {α β : Type}

/-! ## Readings that cannot fail -/

/-- A reading succeeds, whatever notes there are before it. -/
def Succeeds (x : Noting α) : Prop := ∀ notes, ∃ a, result x notes = .ok a

theorem succeeds_pure (a : α) : Succeeds (pure a) := fun _ => ⟨a, rfl⟩

theorem succeeds_bind {x : Noting α} {f : α → Noting β} (hx : Succeeds x) (hf : ∀ a, Succeeds (f a)) : Succeeds (x >>= f) := by
  intro notes
  obtain ⟨a, ha⟩ := hx notes
  rcases result_bind_cases x f notes with ⟨e, he, -⟩ | ⟨a', notes', -, hresult⟩
  · rw [ha] at he
    cases he
  · obtain ⟨b, hb⟩ := hf a' notes'
    exact ⟨b, hresult.trans hb⟩

theorem succeeds_mapM {f : α → Noting β} (hf : ∀ a, Succeeds (f a)) (items : List α) : Succeeds (items.mapM f) := by
  induction items with
  | nil => exact succeeds_pure []
  | cons a rest ih =>
    rw [List.mapM_cons]
    exact succeeds_bind (hf a) fun _ => succeeds_bind ih fun _ => succeeds_pure _

theorem succeeds_amount (zero : α) (read : String → Except QuantityError α) (name : String) (table : Labels) :
    Succeeds (Objects.amount zero read name table) := by
  intro notes
  unfold Objects.amount
  cases table.get? name with
  | none => exact ⟨zero, rfl⟩
  | some text =>
    dsimp only
    cases read text with
    | ok a => exact ⟨a, rfl⟩
    | error e => exact ⟨zero, rfl⟩

theorem succeeds_resourcesOf (table : Labels) : Succeeds (Objects.resourcesOf table) :=
  succeeds_bind (succeeds_amount _ _ _ _) fun _ => succeeds_bind (succeeds_amount _ _ _ _) fun _ =>
    succeeds_bind (succeeds_amount _ _ _ _) fun _ => succeeds_pure _

theorem succeeds_containerOf (object : Json) : Succeeds (Objects.containerOf object) :=
  succeeds_bind (succeeds_resourcesOf _) fun _ => succeeds_bind (succeeds_resourcesOf _) fun _ => succeeds_pure _

/-! ## Objects and their names -/

/-- Why an object without a name is refused. -/
def nameless : ObjectError := .missingKey "metadata:name"

/-- A record is read off an object with a name if it can be read with any name; an object without a name is refused. -/
theorem named_cases {f : String → Noting β} (hf : ∀ name, Succeeds (f name)) (object : Json) (notes : List String) :
    (∃ name b, Objects.name? object = some name ∧ result (f name) notes = .ok b ∧
        result (Objects.nameOf object >>= f) notes = .ok b) ∨
      (Objects.name? object = none ∧ result (Objects.nameOf object >>= f) notes = .error nameless) := by
  unfold Objects.nameOf
  rw [show Objects.textField? "name" (Objects.metadataOf object) = Objects.name? object from rfl]
  cases Objects.name? object with
  | none => exact .inr ⟨rfl, rfl⟩
  | some name =>
    obtain ⟨b, hb⟩ := hf name notes
    exact .inl ⟨name, b, rfl, hb, hb⟩

/-- A node is read off any object that has a name, and has that name. -/
theorem nodeOf_cases (object : Json) (notes : List String) :
    (∃ n : Node, Objects.name? object = some n.name ∧ result (Objects.nodeOf object) notes = .ok n) ∨
      (Objects.name? object = none ∧ result (Objects.nodeOf object) notes = .error nameless) := by
  rcases named_cases (fun name => succeeds_bind (succeeds_resourcesOf _) fun _ =>
    succeeds_bind (succeeds_resourcesOf _) fun _ => succeeds_pure _) object notes with ⟨name, n, hname, hn, hread⟩ | hnone
  · obtain ⟨_, _, -, hn⟩ := exists_of_result_bind hn
    obtain ⟨_, _, -, hn⟩ := exists_of_result_bind hn
    cases hn
    exact .inl ⟨_, hname, hread⟩
  · exact .inr hnone

/-- A pod is read off any object that has a name. -/
theorem podOf_cases (object : Json) (notes : List String) :
    (∃ p : Pod, Objects.name? object = some p.name ∧ result (Objects.podOf object) notes = .ok p) ∨
      (Objects.name? object = none ∧ result (Objects.podOf object) notes = .error nameless) := by
  rcases named_cases (fun name => succeeds_bind (succeeds_mapM succeeds_containerOf _) fun _ => succeeds_pure _) object notes
    with ⟨name, p, hname, hp, hread⟩ | hnone
  · obtain ⟨_, _, -, hp⟩ := exists_of_result_bind hp
    cases hp
    exact .inl ⟨_, hname, hread⟩
  · exact .inr hnone

/-- The records of objects are read just when all have names. -/
theorem mapM_named {f : Json → Except ObjectError β} {objects : List Json}
    (hf : ∀ o, (∃ b, Objects.name? o ≠ none ∧ f o = .ok b) ∨ (Objects.name? o = none ∧ f o = .error nameless)) :
    ((∀ o ∈ objects, Objects.name? o ≠ none) ∧ ∃ bs, objects.mapM f = .ok bs) ∨
      ((∃ o ∈ objects, Objects.name? o = none) ∧ objects.mapM f = .error nameless) := by
  induction objects with
  | nil => exact .inl ⟨nofun, [], rfl⟩
  | cons o rest ih =>
    rw [List.mapM_cons]
    rcases hf o with ⟨b, hname, hb⟩ | ⟨hname, herror⟩
    · rw [hb]
      rcases ih with ⟨hnames, bs, hbs⟩ | ⟨⟨o', ho', hname'⟩, herror⟩
      · rw [hbs]
        exact .inl ⟨by simpa using ⟨hname, hnames⟩, b :: bs, rfl⟩
      · rw [herror]
        exact .inr ⟨⟨o', List.mem_cons_of_mem _ ho', hname'⟩, rfl⟩
    · rw [herror]
      exact .inr ⟨⟨o, List.mem_cons_self, hname⟩, rfl⟩

/-- The nodes of objects are read just when all have names. -/
theorem mapM_nodeOf (objects : List Json) :
    ((∀ o ∈ objects, Objects.name? o ≠ none) ∧ ∃ nodes, objects.mapM (fun o => result (Objects.nodeOf o) []) = .ok nodes) ∨
      ((∃ o ∈ objects, Objects.name? o = none) ∧ objects.mapM (fun o => result (Objects.nodeOf o) []) = .error nameless) := by
  refine mapM_named fun o => ?_
  rcases nodeOf_cases o [] with ⟨n, hname, hn⟩ | hnone
  · exact .inl ⟨n, by simp [hname], hn⟩
  · exact .inr hnone

/-- The pods of objects are read just when all have names. -/
theorem mapM_podOf (objects : List Json) :
    ((∀ o ∈ objects, Objects.name? o ≠ none) ∧ ∃ pods, objects.mapM (fun o => result (Objects.podOf o) []) = .ok pods) ∨
      ((∃ o ∈ objects, Objects.name? o = none) ∧ objects.mapM (fun o => result (Objects.podOf o) []) = .error nameless) := by
  refine mapM_named fun o => ?_
  rcases podOf_cases o [] with ⟨p, hname, hp⟩ | hnone
  · exact .inl ⟨p, by simp [hname], hp⟩
  · exact .inr hnone

/-! ## The records of a snapshot -/

theorem steady_nodeOf (object : Json) : Steady (Objects.nodeOf object) :=
  steady_bind (steady_nameOf _) fun _ => steady_bind (steady_resourcesOf _) fun _ => steady_bind (steady_resourcesOf _) fun _ =>
    steady_pure _

/-- The records of nodes and pods, apart from the notes on them. -/
theorem result_nodeRecords (nodes pods : List Json) (notes : List String) :
    result (Reader.nodeRecords nodes pods) notes = (do
      let nodes ← nodes.mapM fun o => result (Objects.nodeOf o) []
      let pods ← pods.mapM fun o => result (Objects.podOf o) []
      return (Reader.sortedByName nodes, pods)) := by
  have hpods : ∀ nodes : List Node, Steady (do return (Reader.sortedByName nodes, ← pods.mapM Objects.podOf)) :=
    fun _ => steady_bind (steady_mapM steady_podOf _) fun _ => steady_pure _
  rw [Reader.nodeRecords, result_bind hpods, result_mapM steady_nodeOf]
  refine congrArg _ (funext fun nodes => ?_)
  rw [result_bind (fun _ => steady_pure _), result_mapM steady_podOf]
  rfl

/-! ## The reading -/

/-- Whether an object is a node, as far as its shape tells. -/
def isNode : Json → Bool := Shape.isObject "v1" "Node" Shape.node

/-- Whether an object is a pod, as far as its shape tells. -/
def isPod : Json → Bool := Shape.isObject "v1" "Pod" Shape.pod

/-- The notes of a reading go to the log, and nothing else is done. -/
theorem world_withNotes (x : Noting α) (w : World) :
    ∃ notes, ((Reader.withNotes x).run w).2 = { w with log := w.log ++ notes } := by
  have hwarn : ∀ (notes : List String) (w : World),
      ((notes.forM Program.warn).run w).2 = { w with log := w.log ++ notes.map (LogLevel.warn, ·) } := by
    intro notes
    induction notes with
    | nil =>
      intro w
      simp
    | cons note rest ih =>
      intro w
      rw [List.map_cons, List.append_cons]
      exact ih _
  unfold Reader.withNotes
  generalize x.run.run [] = reading
  obtain ⟨r, notes⟩ := reading
  refine ⟨notes.map (LogLevel.warn, ·), ?_⟩
  change (((notes.forM Program.warn).andThen fun _ => _).run w).2 = _
  rw [Program.run_andThen, ← hwarn]
  cases r with
  | error e => rfl
  | ok a => rfl

/-- A reading of nodes lists nodes and pods, and takes the records of what was listed; all it leaves are notes. -/
theorem run_readNodes (w : World) :
    (readNodes.run w).1 = (do
      let nodes ← Reader.decoded isNode (w.listReply .nodes none false)
      let pods ← Reader.decoded isPod ((w.afterListing .nodes).listReply .pods none true)
      let records ← (result (Reader.nodeRecords nodes pods) []).mapError .object
      return { nodes := records.1, pods := records.2, takenAt := w.clock }) ∧
      ∃ notes, (readNodes.run w).2 =
        { ((w.afterListing .nodes).afterListing .pods) with log := ((w.afterListing .nodes).afterListing .pods).log ++ notes } := by
  simp only [readNodes, Program.bind_eq, Program.run_andThen, Program.ask, Program.run_send, Program.run_done,
    World.answer_listObjects]
  rw [show Shape.isObject "v1" "Node" Shape.node = isNode from rfl, show Shape.isObject "v1" "Pod" Shape.pod = isPod from rfl]
  generalize Reader.decoded isNode _ = nodes
  generalize Reader.decoded isPod _ = pods
  generalize hw : (w.afterListing .nodes).afterListing .pods = w₂
  have hclock : w₂.clock = w.clock := by rw [← hw, World.clock_afterListing, World.clock_afterListing]
  rcases nodes with e | nodes
  · exact ⟨rfl, [], by simp⟩
  · rcases pods with e | pods
    · exact ⟨rfl, [], by simp⟩
    · dsimp only
      rw [Program.run_andThen, Program.run_send, Program.run_done, Program.run_andThen]
      obtain ⟨notes, hnotes⟩ := world_withNotes (Reader.nodeRecords nodes pods) w₂
      have hrecords := run_withNotes (Reader.nodeRecords nodes pods) w₂
      rw [show w₂.answer .now = (w₂.clock, w₂) from rfl]
      dsimp only
      rw [hrecords, hnotes, hclock]
      change _ = (result (Reader.nodeRecords nodes pods) []).mapError ClusterError.object >>= _ ∧ _
      cases result (Reader.nodeRecords nodes pods) [] with
      | error e => exact ⟨rfl, notes, rfl⟩
      | ok records => exact ⟨rfl, notes, rfl⟩

theorem mapError_eq_ok_iff {ε ε' : Type} {f : ε → ε'} {x : Except ε α} {a : α} : x.mapError f = .ok a ↔ x = .ok a := by
  cases x <;> simp [Except.mapError]

/-- What a reading of nodes that succeeds was told, and what it makes of that. -/
theorem readNodes_eq_ok_iff {w : World} {s : Snapshot} :
    (readNodes.run w).1 = .ok s ↔ ∃ nodes pods nodes' pods',
      (w.listReply .nodes none false = .ok nodes ∧ ∀ object ∈ nodes, isNode object = true) ∧
      ((w.afterListing .nodes).listReply .pods none true = .ok pods ∧ ∀ object ∈ pods, isPod object = true) ∧
      nodes.mapM (fun o => result (Objects.nodeOf o) []) = .ok nodes' ∧
      pods.mapM (fun o => result (Objects.podOf o) []) = .ok pods' ∧
      s = { nodes := Reader.sortedByName nodes', pods := pods', takenAt := w.clock } := by
  rw [(run_readNodes w).1]
  simp only [bind_eq_ok_iff, Reader.decoded_eq_ok_iff, mapError_eq_ok_iff, result_nodeRecords]
  constructor
  · rintro ⟨nodes, hnodes, pods, hpods, _, ⟨nodes', hnodes', pods', hpods', hrecords⟩, hs⟩
    cases hrecords
    cases hs
    exact ⟨nodes, pods, nodes', pods', hnodes, hpods, hnodes', hpods', rfl⟩
  · rintro ⟨nodes, pods, nodes', pods', hnodes, hpods, hnodes', hpods', rfl⟩
    exact ⟨nodes, hnodes, pods, hpods, _, ⟨nodes', hnodes', pods', hpods', rfl⟩, rfl⟩

/-! ## Requests for samples -/

/-- What a source of samples asks for. -/
inductive AsksSamples : Request → Prop
  | query (address expression : String) : AsksSamples (.query address expression)
  | list : AsksSamples (.listObjects .nodeMetrics none false)

/-- A program sends requests of a kind only, whatever the replies are. -/
def Sends (allowed : Request → Prop) : Program α → Prop
  | .done _ => True
  | .send r next => allowed r ∧ ∀ reply, Sends allowed (next reply)

theorem sends_andThen {allowed : Request → Prop} {p : Program α} {f : α → Program β} (hp : Sends allowed p)
    (hf : ∀ a, Sends allowed (f a)) : Sends allowed (p.andThen f) := by
  induction p with
  | done a => exact hf a
  | send r next ih => exact ⟨hp.1, fun reply => ih reply (hp.2 reply)⟩

theorem sends_gather (address : String) (fields : List SampleField) (samples : Samples) :
    Sends AsksSamples (MetricsSource.gather address fields samples) := by
  induction fields generalizing samples with
  | nil => trivial
  | cons field rest ih => exact ⟨.query _ _, fun reply => ih _⟩

/-- A source of samples asks for nothing but samples. -/
theorem sends_read (source : MetricsSource) : Sends AsksSamples source.read := by
  cases source with
  | address a => exact sends_andThen (sends_gather a _ _) fun _ => trivial
  | cluster =>
    refine sends_andThen ⟨.list, fun _ => trivial⟩ fun reply => ?_
    cases reply with
    | error e => trivial
    | ok objects =>
      dsimp only
      cases objects.mapM Objects.nodeUsage? with
      | none => trivial
      | some usages => trivial

end NodeReadingsAux

end TrainingJobs

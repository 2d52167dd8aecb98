import Mathlib.Data.List.Induction
import Mathlib.Logic.Function.Basic
import TrainingJobs.Metrics.Source
import TrainingJobs.World

/-!
# Answers that are merged

The figures of samples are asked for one after the other, and each answer is put into the samples there are. An answer sets its own figure
of the nodes that it has a number for (`get?_merge`, `figure?_set`), so what is told of a node can be said figure by figure
(`Samples.Tells`), whatever order they are asked for in (`answers_merged_apart`).
-/

namespace TrainingJobs

/-- The value of a figure of a sample: cores, bytes, or a number of GPUs. -/
def Sample.figure? (s : Sample) : SampleField → Option Float
  | .usedCpus => s.usedCpus.map (·.cores)
  | .usedMemory => s.usedMemory.map (·.bytes)
  | .usedGpus => s.usedGpus
  | .usedGpuMemory => s.usedGpuMemory.map (·.bytes)
  | .totalGpuMemory => s.totalGpuMemory.map (·.bytes)

/-- The number that a series gives of a node: it bears the name of the node, and its value is a finite number. -/
def Series.number? (node : String) (s : Series) : Option Float :=
  if s.labels.get? "node" = some node then (readFloat? s.value).filter isFiniteFloat else none

/-- The last number that series give of a node. -/
def Series.last? (node : String) (series : List Series) : Option Float := (series.filterMap (·.number? node)).getLast?

/-- Samples say what answers say: a node is known when an answer gives a number of it, and each figure is the last number that its own
answer gives. There is no answer to an expression that failed. -/
structure Samples.Tells (samples : Samples) (answers : SampleField → Option (List Series)) : Prop where
  known : ∀ node, samples.contains node = true ↔
    ∃ field series, answers field = some series ∧ ∃ s ∈ series, (s.number? node).isSome = true
  told : ∀ node sample, samples.get? node = some sample → ∀ field,
    sample.figure? field = (answers field).bind (Series.last? node)

/-- What a metrics server is asked for a figure. -/
def MetricsSource.queryOf (address : String) (field : SampleField) : String × String := (queryAddress address, field.expression)

/-- The series that a metrics server answers to the expression of a figure, when figures are asked for in an order. -/
def World.answerTo (w : World) (address : String) (order : List SampleField) (field : SampleField) : Option (List Series) :=
  let before := (order.takeWhile (· ≠ field)).map (MetricsSource.queryOf address)
  (w.metrics (w.queries ++ before) (MetricsSource.queryAddress address) field.expression).bind Series.ofAnswer?

namespace MergedAnswersAux

variable {samples samples' : Samples} {answers : SampleField → Option (List Series)} {field : SampleField} {node : String}

/-! ## Figures of samples -/

/-- Setting a figure sets it, and no other. -/
theorem figure?_set (s : Sample) (x : Float) (field other : SampleField) :
    (field.set s x).figure? other = if other = field then some x else s.figure? other := by
  cases field <;> cases other <;> rfl

theorem set_set (s : Sample) (x y : Float) (field : SampleField) : field.set (field.set s x) y = field.set s y := by
  cases field <;> rfl

/-- A sample is determined by its figures. -/
theorem ext_figure? {s s' : Sample} (h : ∀ field, s.figure? field = s'.figure? field) : s = s' := by
  have hcores : Function.Injective Cpu.cores := fun _ _ hab => congrArg Cpu.mk hab
  have hbytes : Function.Injective Memory.bytes := fun _ _ hab => congrArg Memory.mk hab
  obtain ⟨_, _, _, _, _⟩ := s
  obtain ⟨_, _, _, _, _⟩ := s'
  congr
  · exact Option.map_injective hcores (h .usedCpus)
  · exact Option.map_injective hbytes (h .usedMemory)
  · exact h .usedGpus
  · exact Option.map_injective hbytes (h .usedGpuMemory)
  · exact Option.map_injective hbytes (h .totalGpuMemory)

/-! ## One answer -/

/-- The number of a node is the value of a series that is read for it. -/
theorem number?_eq_reading? (node : String) (s : Series) :
    s.number? node = s.reading?.bind fun reading => if reading.1 = node then some reading.2 else none := by
  unfold Series.number? Series.reading?
  cases s.labels.get? "node" with
  | none => rfl
  | some name =>
    cases readFloat? s.value with
    | none => by_cases hname : name = node <;> simp [hname]
    | some x => by_cases hname : name = node <;> by_cases hfinite : isFiniteFloat x = true <;> simp [hname, hfinite, Option.filter]

/-- One reading sets a figure of its node. -/
theorem get?_put (samples : Samples) (field : SampleField) (reading : String × Float) (node : String) :
    (samples.put field reading).get? node =
      if reading.1 = node then some (field.set ((samples.get? node).getD {}) reading.2) else samples.get? node := by
  unfold Samples.put
  rw [SortedTable.get?_insert]
  by_cases hname : reading.1 = node
  · subst hname
    simp
  · have hother : compare node reading.1 ≠ .eq := fun heq => hname (Std.LawfulEqOrd.eq_of_compare heq).symm
    rw [if_neg hother, if_neg hname]

/-- An answer sets its figure of a node to the last number that it gives of the node. -/
theorem get?_merge (samples : Samples) (field : SampleField) (series : List Series) (node : String) :
    (samples.merge field series).get? node =
      match Series.last? node series with
      | none => samples.get? node
      | some x => some (field.set ((samples.get? node).getD {}) x) := by
  induction series using List.reverseRecOn with
  | nil => rfl
  | append_singleton series s ih =>
    have hmerge : samples.merge field (series ++ [s]) =
        s.reading?.elim (samples.merge field series) ((samples.merge field series).put field) := by
      unfold Samples.merge
      rw [List.filterMap_append, List.foldl_append]
      cases hread : s.reading? <;> simp [hread]
    have hlast : Series.last? node (series ++ [s]) = (s.number? node).or (Series.last? node series) := by
      unfold Series.last?
      rw [List.filterMap_append, List.getLast?_append]
      cases hnumber : s.number? node <;> simp [hnumber]
    rw [hmerge, hlast, number?_eq_reading?]
    cases hread : s.reading? with
    | none => exact ih
    | some reading =>
      rw [Option.elim_some, get?_put, Option.bind_some]
      by_cases hname : reading.1 = node
      · rw [if_pos hname, if_pos hname, ih]
        cases Series.last? node series with
        | none => rfl
        | some x => exact congrArg some (set_set _ _ _ _)
      · rw [if_neg hname, if_neg hname, ih]
        rfl

/-! ## What samples tell -/

theorem isSome_last?_iff {series : List Series} :
    (Series.last? node series).isSome = true ↔ ∃ s ∈ series, (s.number? node).isSome = true := by
  rw [Option.isSome_iff_ne_none, Series.last?, Ne, List.getLast?_eq_none_iff, List.filterMap_eq_nil_iff]
  simp [Option.ne_none_iff_isSome]

/-- The sample of a node, empty if there is none, has the figures that the answers tell, and there is none if they tell nothing. -/
theorem tells_iff : samples.Tells answers ↔ ∀ node,
    (samples.contains node = true ↔ ∃ field, ((answers field).bind (Series.last? node)).isSome = true) ∧
      ∀ field, ((samples.get? node).getD {}).figure? field = (answers field).bind (Series.last? node) := by
  have hknown : ∀ node, (∃ field, ((answers field).bind (Series.last? node)).isSome = true) ↔
      ∃ field series, answers field = some series ∧ ∃ s ∈ series, (s.number? node).isSome = true := by
    intro node
    refine exists_congr fun field => ?_
    cases answers field <;> simp [isSome_last?_iff]
  constructor
  · intro h node
    refine ⟨(h.known node).trans (hknown node).symm, fun field => ?_⟩
    cases hs : samples.get? node with
    | some s => exact h.told node s hs field
    | none =>
      have hnothing : ¬ ∃ field, ((answers field).bind (Series.last? node)).isSome = true := by
        rw [hknown, ← h.known, SortedTable.contains, hs]
        decide
      rw [Option.not_isSome_iff_eq_none.1 fun hsome => hnothing ⟨field, hsome⟩]
      cases field <;> rfl
  · intro h
    refine ⟨fun node => (h node).1.trans (hknown node), fun node s hs field => ?_⟩
    rw [← (h node).2 field, hs]
    rfl

/-- Samples are determined by what they tell. -/
theorem eq_of_tells (h : samples.Tells answers) (h' : samples'.Tells answers) : samples = samples' := by
  refine SortedTable.ext_get? fun node => ?_
  have hknown : (samples.get? node).isSome = (samples'.get? node).isSome :=
    Bool.eq_iff_iff.2 ((h.known node).trans (h'.known node).symm)
  cases hs : samples.get? node with
  | none =>
    rw [hs] at hknown
    exact (Option.isNone_iff_eq_none.1 (by simpa using hknown.symm)).symm
  | some s =>
    rw [hs] at hknown
    obtain ⟨s', hs'⟩ := Option.isSome_iff_exists.1 hknown.symm
    rw [hs', ext_figure? fun field => (h.told node s hs field).trans (h'.told node s' hs' field).symm]

/-! ## One answer after the other -/

theorem tells_empty : Samples.Tells .empty fun _ => none := by
  refine tells_iff.2 fun node => ⟨by simp [SortedTable.contains], fun field => ?_⟩
  cases field <;> rfl

/-- An answer that is merged for the first time adds what it says. -/
theorem tells_merge (h : samples.Tells answers) (hnew : answers field = none) (answer : Option (List Series)) :
    (samples.merge field (answer.getD [])).Tells (Function.update answers field answer) := by
  rw [tells_iff] at h ⊢
  intro node
  obtain ⟨hknown, htold⟩ := h node
  have hlast : Series.last? node (answer.getD []) = answer.bind (Series.last? node) := by cases answer <;> rfl
  have hget := get?_merge samples field (answer.getD []) node
  rw [hlast] at hget
  cases hx : answer.bind (Series.last? node) with
  | none =>
    -- the answer tells nothing of the node, and neither does the lack of one before
    have hsame : ∀ other, (Function.update answers field answer other).bind (Series.last? node) =
        (answers other).bind (Series.last? node) := by
      intro other
      by_cases hother : other = field
      · subst hother
        rw [Function.update_self, hx, hnew]
        rfl
      · rw [Function.update_of_ne hother]
    rw [hx] at hget
    simp only [SortedTable.contains, hget, hsame]
    exact ⟨hknown, htold⟩
  | some x =>
    rw [hx] at hget
    simp only [SortedTable.contains, hget]
    refine ⟨⟨fun _ => ⟨field, ?_⟩, fun _ => rfl⟩, fun other => ?_⟩
    · rw [Function.update_self, hx]
      rfl
    · rw [Option.getD_some, figure?_set]
      by_cases hother : other = field
      · rw [if_pos hother, hother, Function.update_self, hx]
      · rw [if_neg hother, Function.update_of_ne hother, htold]

/-- The world when one more figure has been asked for. -/
def afterQuery (w : World) (address : String) (field : SampleField) : World :=
  { w with queries := w.queries ++ [MetricsSource.queryOf address field] }

/-- The first figure is asked for and merged, then the others. -/
theorem run_gather_cons (address : String) (first : SampleField) (rest : List SampleField) (samples : Samples) (w : World) :
    (MetricsSource.gather address (first :: rest) samples).run w =
      (MetricsSource.gather address rest (samples.merge first ((w.answerTo address (first :: rest) first).getD []))).run
        (afterQuery w address first) := by
  have hanswer : w.answerTo address (first :: rest) first =
      (w.metrics w.queries (MetricsSource.queryAddress address) first.expression).bind Series.ofAnswer? := by
    simp [World.answerTo]
  rw [hanswer]
  rfl

/-- The other figures are answered behind the first one as they are in turn. -/
theorem answerTo_cons {address : String} {first field : SampleField} {rest : List SampleField} (hne : first ≠ field) (w : World) :
    w.answerTo address (first :: rest) field = (afterQuery w address first).answerTo address rest field := by
  simp [World.answerTo, afterQuery, hne]

/-- The figures asked for one after the other tell what their answers do, besides what was told before. -/
theorem tells_gather (address : String) {order : List SampleField} (hnodup : order.Nodup) (h : samples.Tells answers)
    (hnew : ∀ field ∈ order, answers field = none) (w : World) :
    ((MetricsSource.gather address order samples).run w).1.Tells fun field =>
      if field ∈ order then w.answerTo address order field else answers field := by
  induction order generalizing samples answers w with
  | nil =>
    simp only [List.not_mem_nil, if_false]
    exact h
  | cons first rest ih =>
    obtain ⟨hfirst, hrest⟩ := List.nodup_cons.1 hnodup
    rw [run_gather_cons]
    generalize hanswer : w.answerTo address (first :: rest) first = answer
    have hmerged := tells_merge h (hnew first List.mem_cons_self) answer
    have hnew' : ∀ field ∈ rest, Function.update answers first answer field = none := by
      intro field hfield
      rw [Function.update_of_ne (ne_of_mem_of_not_mem hfield hfirst)]
      exact hnew field (List.mem_cons_of_mem _ hfield)
    convert ih hrest hmerged hnew' (afterQuery w address first) using 2 with field
    by_cases hfield : field = first
    · subst hfield
      simp [hfirst, hanswer]
    · simp [hfield, answerTo_cons (Ne.symm hfield)]

end MergedAnswersAux

open MergedAnswersAux

/-- Samples that are made of answers say what the answers say, in whatever order the figures are asked for; so the same answers always
make the same samples. A metrics server is asked for all figures in the order they are listed in, and gives samples in any case. -/
theorem answers_merged_apart (w : World) (address : String) (order : List SampleField) (horder : order.Perm SampleField.all) :
    ((MetricsSource.gather address order .empty).run w).1.Tells (w.answerTo address order) ∧
      (∀ (w' : World) (address' : String) (order' : List SampleField), order'.Perm SampleField.all →
        w'.answerTo address' order' = w.answerTo address order →
          ((MetricsSource.gather address' order' .empty).run w').1 = ((MetricsSource.gather address order .empty).run w).1) ∧
      ((MetricsSource.address address).read.run w).1 = .ok ((MetricsSource.gather address SampleField.all .empty).run w).1 := by
  have htells : ∀ (w : World) (address : String) (order : List SampleField), order.Perm SampleField.all →
      ((MetricsSource.gather address order .empty).run w).1.Tells (w.answerTo address order) := by
    intro w address order horder
    have hnodup : order.Nodup := horder.nodup_iff.2 (by decide)
    have hall : ∀ field, field ∈ order := fun field => horder.mem_iff.2 (by cases field <;> decide)
    have h := tells_gather address hnodup tells_empty (fun _ _ => rfl) w
    simpa only [hall, if_true] using h
  refine ⟨htells w address order horder, ?_, ?_⟩
  · intro w' address' order' horder' hsame
    have h' := htells w' address' order' horder'
    rw [hsame] at h'
    exact eq_of_tells h' (htells w address order horder)
  · simp only [MetricsSource.read, Program.bind_eq, Program.run_andThen]
    rfl

/-- A metrics server that answers one expression with two series, and rejects another. -/
def World.measured : World :=
  let first := "\x7b\"metric\": \x7b\"node\": \"one\"\x7d, \"value\": [1, \"2.5\"]\x7d"
  let second := "\x7b\"metric\": \x7b\x7d, \"value\": [1, \"1\"]\x7d"
  { metrics := fun _ _ expression =>
      if expression = SampleField.usedCpus.expression then
        some ("\x7b\"status\": \"success\", \"data\": \x7b\"result\": [" ++ first ++ ", " ++ second ++ "]\x7d\x7d")
      else if expression = SampleField.usedMemory.expression then some "\x7b\"status\": \"error\"\x7d"
      else none }

/-- The other way round the figures are answered the same, and make the same samples. -/
theorem answers_merged_apart_reversed :
    SampleField.all.reverse.Perm SampleField.all ∧
      World.measured.answerTo "metrics" SampleField.all.reverse = World.measured.answerTo "metrics" SampleField.all ∧
      (SampleField.all.map fun field => (World.measured.answerTo "metrics" SampleField.all field).map (·.length)) =
        [some 2, none, none, none, none] ∧
      ((MetricsSource.gather "metrics" SampleField.all.reverse .empty).run World.measured).1 =
        ((MetricsSource.gather "metrics" SampleField.all .empty).run World.measured).1 := by
  have hperm := List.reverse_perm SampleField.all
  have hsame : World.measured.answerTo "metrics" SampleField.all.reverse =
      World.measured.answerTo "metrics" SampleField.all := rfl
  obtain ⟨-, hmerged, -⟩ := answers_merged_apart World.measured "metrics" SampleField.all (.refl _)
  refine ⟨hperm, hsame, ?_, hmerged _ _ _ hperm hsame⟩
  decide +kernel

end TrainingJobs

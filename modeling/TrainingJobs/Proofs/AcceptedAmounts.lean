import Mathlib.Data.List.ReduceOption
import TrainingJobs.Proofs.AcceptedRequests
import TrainingJobs.Proofs.QuantityReading

/-!
# Amounts that are accepted

An amount that can be read is handed on as it is written. Reading takes more than the quantities of the cluster (`IsClusterQuantity`):
it leaves out the white space at the ends, and takes a unit behind an exponent. So the amounts of an accepted request are quantities of
the cluster just when none of them is written like that (`accepted_amounts_iff`).
-/

namespace TrainingJobs

namespace Quantity

variable {text : String}

/-- A text is a quantity of the cluster as it stands: a number, and behind it an exponent or a unit, but not both. -/
def IsClusterQuantity (text : String) : Prop :=
  ∃ f : Form .ascii, f.text = text.toList ∧ String.ofList f.letters ∈ units ∧ (f.exponent = [] ∨ f.letters = [])

instance : Decidable (IsClusterQuantity text) :=
  decidable_of_iff _ (exists_form_iff (P := fun exponent letters =>
    String.ofList letters ∈ units ∧ (exponent = [] ∨ letters = []))).symm

/-- A text starts or ends with white space. -/
def HasBlankEnd (text : String) : Prop :=
  (∃ c ∈ text.toList.head?, Text.isBlank c = true) ∨ ∃ c ∈ text.toList.getLast?, Text.isBlank c = true

instance : Decidable (HasBlankEnd text) :=
  @instDecidableOr _ _ (Option.decidableExistsMem text.toList.head?) (Option.decidableExistsMem text.toList.getLast?)

/-- Without the white space around it, a text has letters behind an exponent. -/
def HasUnitBehindExponent (text : String) : Prop :=
  ∃ f : Form .ascii, f.text = Text.trimBlanks text.toList ∧ f.exponent ≠ [] ∧ f.letters ≠ []

instance : Decidable (HasUnitBehindExponent text) :=
  decidable_of_iff _ (exists_form_iff (P := fun exponent letters => exponent ≠ [] ∧ letters ≠ [])).symm

theorem trimBlanks_of_not_hasBlankEnd (h : ¬ HasBlankEnd text) : Text.trimBlanks text.toList = text.toList := by
  refine Text.trimBlanks_eq_self (fun c hc => ?_) fun c hc => ?_
  · exact Bool.eq_false_iff.2 fun hblank => h (.inl ⟨c, hc, hblank⟩)
  · exact Bool.eq_false_iff.2 fun hblank => h (.inr ⟨c, hc, hblank⟩)

theorem not_isBlank_of_isGraphic {c : Char} (h : IsGraphic c) : Text.isBlank c = false := by
  obtain ⟨hlow, hhigh⟩ := h
  simp only [Text.isBlank, Bool.or_eq_false_iff, Bool.and_eq_false_iff, decide_eq_false_iff_not, beq_eq_false_iff_ne]
  omega

theorem not_hasBlankEnd_of_form {f : Form .ascii} (h : f.text = text.toList) : ¬ HasBlankEnd text := by
  have hplain : ∀ c ∈ text.toList, Text.isBlank c = false := by
    intro c hc
    rw [← h] at hc
    exact not_isBlank_of_isGraphic (f.isGraphic_of_mem_text hc)
  rintro (⟨c, hc, hblank⟩ | ⟨c, hc, hblank⟩)
  · exact Bool.false_ne_true ((hplain c (List.mem_of_mem_head? hc)).symm.trans hblank)
  · exact Bool.false_ne_true ((hplain c (List.mem_of_getLast? hc)).symm.trans hblank)

/-- What is read is a form with a unit, between white space. -/
theorem exists_form_of_read {x : Float} (h : read text = .ok x) :
    ∃ f : Form .ascii, f.text = Text.trimBlanks text.toList ∧ String.ofList f.letters ∈ units := by
  have hanswer := readsTo_read text
  rw [h] at hanswer
  cases hanswer with
  | ok hf hunit => exact ⟨_, hf, hunit⟩

/-- What is read is a quantity of the cluster, unless white space was left out or a unit stands behind an exponent. -/
theorem isClusterQuantity_iff {x : Float} (h : read text = .ok x) :
    IsClusterQuantity text ↔ ¬ HasBlankEnd text ∧ ¬ HasUnitBehindExponent text := by
  constructor
  · rintro ⟨f, hf, -, hone⟩
    have hends := not_hasBlankEnd_of_form hf
    refine ⟨hends, ?_⟩
    rintro ⟨g, hg, hexponent, hletters⟩
    rw [trimBlanks_of_not_hasBlankEnd hends, ← hf] at hg
    obtain ⟨hnumber, hsame⟩ := Form.number_eq hg
    rw [← g.dropWhile_number, hnumber, f.dropWhile_number] at hexponent
    rw [hsame] at hletters
    rcases hone with hnone | hnone
    · exact hexponent hnone
    · exact hletters hnone
  · rintro ⟨hends, hboth⟩
    obtain ⟨f, hf, hunit⟩ := exists_form_of_read h
    have hf' := hf.trans (trimBlanks_of_not_hasBlankEnd hends)
    refine ⟨f, hf', hunit, ?_⟩
    by_contra hnot
    rw [not_or] at hnot
    exact hboth ⟨f, hf, hnot⟩

/-- Every quantity of the cluster is read. -/
theorem exists_read_of_isClusterQuantity (h : IsClusterQuantity text) : ∃ x, read text = .ok x := by
  obtain ⟨f, hf, hunit, -⟩ := h
  have htrim := trimBlanks_of_not_hasBlankEnd (not_hasBlankEnd_of_form hf)
  exact exists_read_of_form (hf.trans htrim.symm) hunit

end Quantity

open Quantity

/-- The amounts of values that are there. -/
def ChartValues.amounts (v : ChartValues) : List String := [v.cpu, v.memory, v.cpuLimit, v.memoryLimit].reduceOption

variable {r : SubmitRequest} {v : ChartValues}

theorem ChartValues.mem_amounts_iff {text : String} :
    text ∈ v.amounts ↔ some text ∈ [v.cpu, v.memory, v.cpuLimit, v.memoryLimit] :=
  List.reduceOption_mem_iff

/-- The amounts of a request that is accepted are handed on as they are written. Each of them is a number with a unit between white
space, and they all are quantities of the cluster just when none has white space at an end or a unit behind an exponent. Any other
quantities of the cluster would be accepted in their place. -/
theorem accepted_amounts_iff (h : r.values = .ok v) :
    (v.cpu = r.cpu ∧ v.memory = r.memory ∧ v.cpuLimit = r.cpuLimit ∧ v.memoryLimit = r.memoryLimit) ∧
    (∀ text ∈ v.amounts, ∃ (before after : List Char) (f : Form .ascii), text.toList = before ++ f.text ++ after ∧
      (∀ c ∈ before ++ after, Text.isBlank c = true) ∧ String.ofList f.letters ∈ units) ∧
    ((∀ text ∈ v.amounts, IsClusterQuantity text) ↔ ∀ text ∈ v.amounts, ¬ HasBlankEnd text ∧ ¬ HasUnitBehindExponent text) ∧
    ∀ cpu memory cpuLimit memoryLimit : Option String,
      (∀ amount ∈ [cpu, memory, cpuLimit, memoryLimit], ∀ text ∈ amount, IsClusterQuantity text) →
      { r with cpu := cpu, memory := memory, cpuLimit := cpuLimit, memoryLimit := memoryLimit }.values =
        .ok { v with cpu := cpu, memory := memory, cpuLimit := cpuLimit, memoryLimit := memoryLimit } := by
  obtain ⟨hread, share, environment, set, hshare, henvironment, hset, rfl⟩ := SubmitRequest.values_eq_ok_iff.1 h
  have hamounts : ∀ text ∈ (r.valuesOf share environment set).amounts, ∃ x, read text = .ok x := by
    intro text htext
    exact hread (some text) (ChartValues.mem_amounts_iff.1 htext) text rfl
  refine ⟨⟨rfl, rfl, rfl, rfl⟩, fun text htext => ?_, ?_, fun cpu memory cpuLimit memoryLimit hquantities => ?_⟩
  · obtain ⟨x, hx⟩ := hamounts text htext
    obtain ⟨f, hf, hunit⟩ := exists_form_of_read hx
    obtain ⟨before, after, hparts, hblank⟩ := Text.exists_trimBlanks text.toList
    exact ⟨before, after, f, by rw [hf]; exact hparts, hblank, hunit⟩
  · refine forall₂_congr fun text htext => ?_
    obtain ⟨x, hx⟩ := hamounts text htext
    exact isClusterQuantity_iff hx
  · refine SubmitRequest.values_eq_ok_iff.2 ⟨fun amount hamount text htext => ?_, share, environment, set, hshare, henvironment,
      hset, rfl⟩
    exact exists_read_of_isClusterQuantity (hquantities amount hamount text htext)

/-- A request with a unit of every kind, and with an exponent. -/
def measuredRequest : SubmitRequest :=
  { Lifecycle.plainRequest with cpu := some "500m", memory := some "1.5E", cpuLimit := some "+2.e3", memoryLimit := some ".5Ei" }

/-- It is accepted, and its amounts are quantities of the cluster. -/
theorem accepted_amounts_of_units : ∃ v, measuredRequest.values = .ok v ∧ v.amounts = ["500m", "1.5E", "+2.e3", ".5Ei"] ∧
    ∀ text ∈ v.amounts, IsClusterQuantity text := by
  have hvalues : measuredRequest.values = .ok (measuredRequest.valuesOf .none [] []) := by rfl
  obtain ⟨-, -, hiff, -⟩ := accepted_amounts_iff hvalues
  exact ⟨_, hvalues, rfl, hiff.2 (by decide)⟩

/-- An amount with a unit behind an exponent is accepted, as is one with white space in front, and handed on as it is. -/
theorem amounts_of_scaled_exponent_false :
    (∃ v, { Lifecycle.plainRequest with cpu := some "1e3k" }.values = .ok v ∧ v.cpu = some "1e3k") ∧
      (∃ v, { Lifecycle.plainRequest with cpu := some " 1" }.values = .ok v ∧ v.cpu = some " 1") ∧
      ¬ IsClusterQuantity "1e3k" ∧ ¬ IsClusterQuantity " 1" :=
  ⟨⟨_, rfl, rfl⟩, ⟨_, rfl, rfl⟩, by decide, by decide⟩

end TrainingJobs

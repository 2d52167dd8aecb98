import Mathlib.Data.List.Nodup
import TrainingJobs.Registry.Registration

/-!
# The number of the next member

The number that a family does not use yet is looked for among one number more than there are siblings, so one of them is free and the
search finds it (`find?_leastFree`). It is the least free number from 1 on (`leastFree_spec`), and so the same for all lists of siblings
that have the same numbers (`free_number_found`).
-/

namespace TrainingJobs

variable {indexes others : List Nat}

/-- The search for the least free number finds one. -/
theorem find?_leastFree (indexes : List Nat) :
    (List.range' 1 (indexes.length + 1)).find? (!indexes.contains ·) = some (leastFree indexes) := by
  cases hfind : (List.range' 1 (indexes.length + 1)).find? (!indexes.contains ·) with
  | none =>
    -- One number more than there are indexes: they cannot all be among the indexes.
    have hsub : List.range' 1 (indexes.length + 1) ⊆ indexes := by
      intro j hj
      simpa using List.find?_eq_none.1 hfind j hj
    have hlen := (List.nodup_range' 1).length_le_of_subset hsub
    rw [List.length_range'] at hlen
    omega
  | some k => simp only [leastFree, hfind, Option.getD_some]

/-- The least number from 1 on that none of the indexes is, as it is found, is that number. -/
theorem leastFree_spec (indexes : List Nat) :
    1 ≤ leastFree indexes ∧ leastFree indexes ∉ indexes ∧ ∀ j, 1 ≤ j → j < leastFree indexes → j ∈ indexes := by
  obtain ⟨hfree, hmem, hbelow⟩ := List.find?_range'_eq_some.1 (find?_leastFree indexes)
  refine ⟨(List.mem_range'_1.1 hmem).1, by simpa using hfree, fun j hj hlt => ?_⟩
  simpa using hbelow j hj hlt

/-- It is at most one more than there are indexes. -/
theorem leastFree_le (indexes : List Nat) : leastFree indexes ≤ indexes.length + 1 := by
  have hlt := (List.mem_range'_1.1 (List.mem_of_find?_eq_some (find?_leastFree indexes))).2
  omega

/-- It does not depend on the order of the indexes, nor on how often one of them is there. -/
theorem leastFree_congr (h : ∀ j, j ∈ indexes ↔ j ∈ others) : leastFree indexes = leastFree others := by
  obtain ⟨hpos, hfree, hbelow⟩ := leastFree_spec indexes
  obtain ⟨hpos', hfree', hbelow'⟩ := leastFree_spec others
  rcases Nat.lt_trichotomy (leastFree indexes) (leastFree others) with hlt | heq | hgt
  · exact absurd ((h _).2 (hbelow' _ hpos hlt)) hfree
  · exact heq
  · exact absurd ((h _).1 (hbelow _ hpos' hgt)) hfree'

/-- The next number of a family is at most one more than it has members. -/
theorem smallestUnoccupiedIndex_le (siblings : List Record) : smallestUnoccupiedIndex siblings ≤ siblings.length + 1 := by
  have hle := leastFree_le (siblings.map (·.familyIndex))
  rwa [List.length_map] at hle

/-- Whatever numbers the siblings have, the search for the next number finds one, and what stands in for a number that is not found is
never used. The number is from 1 on, at most one more than there are siblings, and still a word when those are fewer than the greatest
word. No sibling has it, some sibling has each number before it, and any siblings with the same numbers lead to it. -/
theorem free_number_found (siblings : List Record) (h : siblings.length < maxWord) :
    (1 ≤ smallestUnoccupiedIndex siblings ∧ smallestUnoccupiedIndex siblings ≤ siblings.length + 1 ∧
      smallestUnoccupiedIndex siblings ≤ maxWord) ∧
    (∀ r ∈ siblings, r.familyIndex ≠ smallestUnoccupiedIndex siblings) ∧
    (∀ j, 1 ≤ j → j < smallestUnoccupiedIndex siblings → ∃ r ∈ siblings, r.familyIndex = j) ∧
    (List.range' 1 (siblings.length + 1)).find? (!(siblings.map (·.familyIndex)).contains ·) =
      some (smallestUnoccupiedIndex siblings) ∧
    ∀ others : List Record, (∀ j, (∃ r ∈ others, r.familyIndex = j) ↔ ∃ r ∈ siblings, r.familyIndex = j) →
      smallestUnoccupiedIndex others = smallestUnoccupiedIndex siblings := by
  obtain ⟨hpos, hfree, hbelow⟩ := leastFree_spec (siblings.map (·.familyIndex))
  have hle := smallestUnoccupiedIndex_le siblings
  refine ⟨⟨hpos, hle, Nat.le_trans hle h⟩, fun r hr heq => hfree (List.mem_map.2 ⟨r, hr, heq⟩), fun j hj hlt => ?_, ?_,
    fun others hsame => ?_⟩
  · exact List.mem_map.1 (hbelow j hj hlt)
  · have hfound := find?_leastFree (siblings.map (·.familyIndex))
    rwa [List.length_map] at hfound
  · refine leastFree_congr fun j => ?_
    rw [List.mem_map, List.mem_map]
    exact hsame j

/-- Siblings that have a number twice, the number of the name itself, and one beyond their count. -/
def gappedSiblings : List Record := [2, 7, 1, 2, 0].map fun i => { familyIndex := i }

/-- Of them the next number is 3, as it is in another order and without the second 2. -/
theorem free_number_found_of_gaps : gappedSiblings.length < maxWord ∧ smallestUnoccupiedIndex gappedSiblings = 3 ∧
    smallestUnoccupiedIndex ([0, 1, 2, 7].map fun i => { familyIndex := i }) = 3 := by
  have hlength : gappedSiblings.length < maxWord := by decide
  have hnumber : smallestUnoccupiedIndex gappedSiblings = 3 := by decide
  obtain ⟨-, -, -, -, hsame⟩ := free_number_found gappedSiblings hlength
  refine ⟨hlength, hnumber, (hsame _ fun j => ?_).trans hnumber⟩
  simp [gappedSiblings]
  tauto

end TrainingJobs

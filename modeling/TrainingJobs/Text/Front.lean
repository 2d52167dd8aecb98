/-!
# The front of a list

What stands at the front of a list and passes a test is taken off up to the first item that does not pass it
(`takeWhile_append_eq`, `dropWhile_append_eq`).
-/

namespace TrainingJobs.Text

variable {α : Type} {p : α → Bool} {front rest : List α}

/-- What begins a list is taken off it up to the first item that does not belong to it. -/
theorem takeWhile_append_eq (hfront : ∀ a ∈ front, p a = true) (hrest : ∀ a ∈ rest.head?, p a = false) :
    (front ++ rest).takeWhile p = front := by
  rw [List.takeWhile_append_of_pos hfront]
  cases rest with
  | nil => rw [List.takeWhile_nil, List.append_nil]
  | cons a rest => rw [List.takeWhile_cons_of_neg (by simp [hrest a rfl]), List.append_nil]

theorem dropWhile_append_eq (hfront : ∀ a ∈ front, p a = true) (hrest : ∀ a ∈ rest.head?, p a = false) :
    (front ++ rest).dropWhile p = rest := by
  rw [List.dropWhile_append_of_pos hfront]
  cases rest with
  | nil => rfl
  | cons a rest => rw [List.dropWhile_cons_of_neg (by simp [hrest a rfl])]

end TrainingJobs.Text

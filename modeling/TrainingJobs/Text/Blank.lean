/-!
# White space

The white space of the program is the Unicode property `White_Space`. `trim` cuts it off both ends of a text; a text
that has none at its ends is left alone (`trimBlanks_eq_self`), and what is cut off is white space (`exists_trimBlanks`).
-/

namespace TrainingJobs.Text

/-- The characters with the Unicode property `White_Space`. -/
def isBlank (c : Char) : Bool :=
  let n := c.toNat
  (9 ≤ n && n ≤ 13) || n == 0x20 || n == 0x85 || n == 0xa0 || n == 0x1680 || (0x2000 ≤ n && n ≤ 0x200a) ||
    n == 0x2028 || n == 0x2029 || n == 0x202f || n == 0x205f || n == 0x3000

/-- The characters of a text without the white space at its end. -/
def dropEndBlanks (cs : List Char) : List Char :=
  (cs.reverse.dropWhile isBlank).reverse

/-- The characters of a text without the white space at either end. -/
def trimBlanks (cs : List Char) : List Char :=
  dropEndBlanks (cs.dropWhile isBlank)

/-- A text without the white space at either end. -/
def trim (text : String) : String :=
  String.ofList (trimBlanks text.toList)

/-- Cutting white space off the end of a text whose last character is not white space changes nothing. -/
theorem dropEndBlanks_eq_self {cs : List Char} (h : ∀ c ∈ cs.getLast?, isBlank c = false) : dropEndBlanks cs = cs := by
  unfold dropEndBlanks
  rcases List.eq_nil_or_concat cs with rfl | ⟨front, last, rfl⟩
  · rfl
  · have hl : isBlank last = false := h last (by simp)
    simp [hl]

/-- Cutting white space off the front of a text whose first character is not white space changes nothing. -/
theorem dropWhile_isBlank_eq_self {cs : List Char} (h : ∀ c ∈ cs.head?, isBlank c = false) :
    cs.dropWhile isBlank = cs := by
  cases cs with
  | nil => rfl
  | cons c rest => simp [h c (by simp)]

/-- A text that neither starts nor ends with white space is its own trimmed form. -/
theorem trimBlanks_eq_self {cs : List Char} (hf : ∀ c ∈ cs.head?, isBlank c = false)
    (hl : ∀ c ∈ cs.getLast?, isBlank c = false) : trimBlanks cs = cs := by
  rw [trimBlanks, dropWhile_isBlank_eq_self hf, dropEndBlanks_eq_self hl]

/-- What is cut off the end is white space to the last. -/
theorem dropEndBlanks_append (cs : List Char) : dropEndBlanks cs ++ (cs.reverse.takeWhile isBlank).reverse = cs := by
  rw [dropEndBlanks, ← List.reverse_append, List.takeWhile_append_dropWhile, List.reverse_reverse]

/-- What is cut off a text stands at its ends, and is white space. -/
theorem exists_trimBlanks (cs : List Char) :
    ∃ before after, cs = before ++ trimBlanks cs ++ after ∧ ∀ c ∈ before ++ after, isBlank c = true := by
  have hall : ∀ l : List Char, ∀ c ∈ l.takeWhile isBlank, isBlank c = true := fun l => List.all_eq_true.1 List.all_takeWhile
  refine ⟨cs.takeWhile isBlank, ((cs.dropWhile isBlank).reverse.takeWhile isBlank).reverse, ?_, fun c hc => ?_⟩
  · rw [List.append_assoc, trimBlanks, dropEndBlanks_append, List.takeWhile_append_dropWhile]
  · rcases List.mem_append.1 hc with hc | hc
    · exact hall cs c hc
    · exact hall _ c (List.mem_reverse.1 hc)

end TrainingJobs.Text

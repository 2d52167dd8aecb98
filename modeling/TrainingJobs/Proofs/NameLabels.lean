import TrainingJobs.Job.Name
import TrainingJobs.Text.Digits
import TrainingJobs.Text.Front

/-!
# Names and labels

What is left of a text without the white space around it is one text only (`Text.isTrimmed_iff`). A name is read from the text just
when that is a DNS-1035 label (`JobName.exists_read_iff`), whose form is the one that the pattern of names finds. A text that is
refused has a reason for it, its length before its form (`JobName.Answers`), and it is refused for no other (`names_are_labels`).
-/

namespace TrainingJobs

namespace Text

variable {cs core before after : List Char} {c : Char}

/-! ## White space around a text -/

/-- What is left of a text without the white space around it. -/
structure IsTrimmed (cs core : List Char) : Prop where
  around : ∃ before after, cs = before ++ core ++ after ∧ ∀ c ∈ before ++ after, isBlank c = true
  first : ∀ c ∈ core.head?, isBlank c = false
  last : ∀ c ∈ core.getLast?, isBlank c = false

theorem dropEndBlanks_append_eq (hafter : ∀ c ∈ after, isBlank c = true) (hlast : ∀ c ∈ core.getLast?, isBlank c = false) :
    dropEndBlanks (core ++ after) = core := by
  rw [dropEndBlanks, List.reverse_append, dropWhile_append_eq, List.reverse_reverse]
  · intro c hc
    exact hafter c (List.mem_reverse.1 hc)
  · intro c hc
    rw [List.head?_reverse] at hc
    exact hlast c hc

/-- White space around a text is cut off. -/
theorem IsTrimmed.eq_trimBlanks (h : IsTrimmed cs core) : core = trimBlanks cs := by
  obtain ⟨before, after, rfl, hblank⟩ := h.around
  have hbefore : ∀ c ∈ before, isBlank c = true := fun c hc => hblank c (List.mem_append_left _ hc)
  have hafter : ∀ c ∈ after, isBlank c = true := fun c hc => hblank c (List.mem_append_right _ hc)
  rw [trimBlanks, List.append_assoc]
  cases core with
  | nil =>
    -- All of it is white space in front of nothing.
    rw [List.nil_append, ← List.append_nil (before ++ after), dropWhile_append_eq hblank (by simp)]
    rfl
  | cons first rest =>
    have hfront : (before ++ (first :: rest ++ after)).dropWhile isBlank = first :: rest ++ after :=
      dropWhile_append_eq hbefore h.first
    rw [hfront, dropEndBlanks_append_eq hafter h.last]

theorem isBlank_of_mem_head?_dropWhile (hc : c ∈ (cs.dropWhile isBlank).head?) : isBlank c = false := by
  have hhead := List.head?_dropWhile_not isBlank cs
  rw [Option.mem_def.1 hc] at hhead
  exact hhead

/-- What is cut off is all the white space that there is around the text. -/
theorem isTrimmed_trimBlanks (cs : List Char) : IsTrimmed cs (trimBlanks cs) where
  around := exists_trimBlanks cs
  first := by
    intro c hc
    have hfront : c ∈ (cs.dropWhile isBlank).head? := by
      rw [← dropEndBlanks_append (cs.dropWhile isBlank), List.head?_append, ← trimBlanks, Option.mem_def.1 hc]
      rfl
    exact isBlank_of_mem_head?_dropWhile hfront
  last := by
    intro c hc
    rw [trimBlanks, dropEndBlanks, List.getLast?_reverse] at hc
    exact isBlank_of_mem_head?_dropWhile hc

theorem isTrimmed_iff : IsTrimmed cs core ↔ core = trimBlanks cs := by
  constructor
  · exact IsTrimmed.eq_trimBlanks
  · rintro rfl
    exact isTrimmed_trimBlanks cs

end Text

/-! ## Labels -/

variable {text : String} {c : Char}

/-- A text is a DNS-1035 label. -/
structure IsLabel (text : String) : Prop where
  nonempty : 1 ≤ text.length
  short : text.length ≤ 63
  chars : ∀ c ∈ text.toList, ('a' ≤ c ∧ c ≤ 'z') ∨ ('0' ≤ c ∧ c ≤ '9') ∨ c = '-'
  first : ∀ c ∈ text.toList.head?, 'a' ≤ c ∧ c ≤ 'z'
  last : ∀ c ∈ text.toList.getLast?, c ≠ '-'

theorem isSmallLetter_iff : isSmallLetter c = true ↔ 'a' ≤ c ∧ c ≤ 'z' := by
  simp [isSmallLetter]

theorem isLabelChar_iff : isLabelChar c = true ↔ ('a' ≤ c ∧ c ≤ 'z') ∨ ('0' ≤ c ∧ c ≤ '9') ∨ c = '-' := by
  have hdigit : c.isDigit = true ↔ '0' ≤ c ∧ c ≤ '9' := by
    rw [Text.isDigit_iff, Char.le_def, Char.le_def, UInt32.le_iff_toNat_le, UInt32.le_iff_toNat_le]
    rfl
  rw [isLabelChar, Bool.or_eq_true, Bool.or_eq_true, beq_iff_eq, isSmallLetter_iff, hdigit, or_assoc]

/-- The form of a name, and its length, make a label. -/
theorem isLabel_iff : IsLabel text ↔ text.length ≤ greatestNameLength ∧ hasLabelForm text.toList = true := by
  simp only [hasLabelForm, Bool.and_eq_true, List.all_eq_true, bne_iff_ne, ne_eq, isLabelChar_iff]
  constructor
  · intro h
    refine ⟨h.short, ⟨?_, h.chars⟩, fun hlast => h.last _ hlast rfl⟩
    have hnonempty := h.nonempty
    have hfirst := h.first
    rw [← String.length_toList] at hnonempty
    cases hcs : text.toList with
    | nil => simp [hcs] at hnonempty
    | cons c rest =>
      rw [hcs] at hfirst
      exact isSmallLetter_iff.2 (hfirst c rfl)
  · rintro ⟨hshort, ⟨hfirst, hchars⟩, hlast⟩
    refine ⟨?_, hshort, hchars, ?_, ?_⟩
    · rw [← String.length_toList]
      cases hcs : text.toList with
      | nil => simp [hcs] at hfirst
      | cons c rest => simp
    · intro c hc
      rw [Option.mem_def.1 hc] at hfirst
      exact isSmallLetter_iff.1 hfirst
    · rintro c hc rfl
      exact hlast hc

instance : Decidable (IsLabel text) := decidable_of_iff _ isLabel_iff.symm

/-- The characters of names are not white space. -/
theorem isBlank_of_isLabelChar {c : Char} (h : isLabelChar c = true) : Text.isBlank c = false := by
  simp only [isLabelChar, isSmallLetter, Char.isDigit, Bool.or_eq_true, Bool.and_eq_true, decide_eq_true_eq, beq_iff_eq,
    Char.le_def, UInt32.le_iff_toNat_le] at h
  have hrange : (97 ≤ c.toNat ∧ c.toNat ≤ 122) ∨ (48 ≤ c.toNat ∧ c.toNat ≤ 57) ∨ c.toNat = 45 := by
    rcases h with (h | h) | rfl
    · exact .inl h
    · exact .inr (.inl h)
    · exact .inr (.inr rfl)
  simp only [Text.isBlank, Bool.or_eq_false_iff, Bool.and_eq_false_iff, decide_eq_false_iff_not, beq_eq_false_iff_ne]
  omega

/-- A text with the form of a name has no white space at its ends. -/
theorem trim_of_form {text : String} (h : hasLabelForm text.toList = true) : Text.trim text = text := by
  simp only [hasLabelForm, Bool.and_eq_true, List.all_eq_true] at h
  obtain ⟨⟨-, hall⟩, -⟩ := h
  have hfirst : ∀ c ∈ text.toList.head?, Text.isBlank c = false := fun c hc =>
    isBlank_of_isLabelChar (hall c (List.mem_of_mem_head? hc))
  have hlast : ∀ c ∈ text.toList.getLast?, Text.isBlank c = false := fun c hc =>
    isBlank_of_isLabelChar (hall c (List.mem_of_mem_getLast? hc))
  rw [Text.trim, Text.trimBlanks_eq_self hfirst hlast, String.ofList_toList]

/-! ## Reading names -/

namespace JobName

theorem text_inj {a b : JobName} (h : a.text = b.text) : a = b := by
  cases a
  cases b
  cases h
  rfl

theorem isLabel (name : JobName) : IsLabel name.text := isLabel_iff.2 ⟨name.short, name.form⟩

theorem trim_text (name : JobName) : Text.trim name.text = name.text := trim_of_form name.form

/-- What is answered to a text, by what is left of it without the white space around it. -/
inductive Answers (text : String) : Except JobNameError JobName → Prop
  | ok {name : JobName} (h : name.text = Text.trim text) : Answers text (.ok name)
  | tooShort (h : Text.trim text = "") : Answers text (.error .tooShort)
  | tooLong (h : greatestNameLength < (Text.trim text).length) : Answers text (.error .tooLong)
  | wrongForm (hne : Text.trim text ≠ "") (hshort : (Text.trim text).length ≤ greatestNameLength)
    (hlabel : ¬ IsLabel (Text.trim text)) : Answers text (.error .wrongForm)

theorem trim_nonempty_iff : (Text.trim text).length ≥ 1 ↔ Text.trim text ≠ "" := by
  rw [ge_iff_le, Nat.one_le_iff_ne_zero, ne_eq, String.length_eq_zero_iff]

theorem answers_read (text : String) : Answers text (read text) := by
  unfold read
  dsimp only
  split
  · rename_i hnonempty
    split
    · rename_i hshort
      split
      · exact .ok rfl
      · rename_i hform
        refine .wrongForm (trim_nonempty_iff.1 hnonempty) hshort fun hlabel => ?_
        exact hform (isIn_namePattern_iff.2 (isLabel_iff.1 hlabel).2)
    · rename_i hlong
      exact .tooLong (Nat.lt_of_not_le hlong)
  · rename_i hnone
    exact .tooShort (Decidable.not_not.1 (mt trim_nonempty_iff.2 hnone))

/-- Nothing else is answered, since no two of the reasons hold of one text. -/
theorem read_of_answers {answer : Except JobNameError JobName} (h : Answers text answer) : read text = answer := by
  unfold read
  dsimp only
  cases h with
  | @ok name h =>
    have hform := isIn_namePattern_iff.2 name.form
    rw [h] at hform
    rw [dif_pos (h ▸ name.nonempty), dif_pos (h ▸ name.short), dif_pos hform]
    exact congrArg Except.ok (text_inj h.symm)
  | tooShort h => rw [dif_neg (mt trim_nonempty_iff.1 (not_not_intro h))]
  | tooLong h =>
    have hnonempty : (Text.trim text).length ≥ 1 := Nat.lt_of_le_of_lt (Nat.zero_le _) h
    rw [dif_pos hnonempty, dif_neg (Nat.not_le_of_lt h)]
  | wrongForm hne hshort hlabel =>
    have hform : ¬ namePattern.isIn (Text.trim text).toList = true := fun hin =>
      hlabel (isLabel_iff.2 ⟨hshort, isIn_namePattern_iff.1 hin⟩)
    rw [dif_pos (trim_nonempty_iff.2 hne), dif_pos hshort, dif_neg hform]

theorem read_eq_iff {answer : Except JobNameError JobName} : read text = answer ↔ Answers text answer := by
  constructor
  · rintro rfl
    exact answers_read text
  · exact read_of_answers

theorem read_eq_ok_iff {name : JobName} : read text = .ok name ↔ name.text = Text.trim text := by
  rw [read_eq_iff]
  constructor
  · rintro ⟨h⟩
    exact h
  · exact .ok

/-- A name is read from a text when what is left of the text is a label. -/
theorem exists_read_iff : (∃ name, read text = .ok name) ↔ IsLabel (Text.trim text) := by
  constructor
  · rintro ⟨name, hread⟩
    rw [← read_eq_ok_iff.1 hread]
    exact name.isLabel
  · intro h
    exact ⟨⟨Text.trim text, h.nonempty, h.short, (isLabel_iff.1 h).2⟩, read_eq_ok_iff.2 rfl⟩

theorem read_eq_tooShort_iff : read text = .error .tooShort ↔ Text.trim text = "" := by
  rw [read_eq_iff]
  constructor
  · rintro ⟨⟩
    assumption
  · exact .tooShort

theorem read_eq_tooLong_iff : read text = .error .tooLong ↔ greatestNameLength < (Text.trim text).length := by
  rw [read_eq_iff]
  constructor
  · rintro ⟨⟩
    assumption
  · exact .tooLong

theorem read_eq_wrongForm_iff : read text = .error .wrongForm ↔
    Text.trim text ≠ "" ∧ (Text.trim text).length ≤ greatestNameLength ∧ ¬ IsLabel (Text.trim text) := by
  rw [read_eq_iff]
  constructor
  · rintro ⟨⟩
    exact ⟨‹_›, ‹_›, ‹_›⟩
  · rintro ⟨hne, hshort, hlabel⟩
    exact .wrongForm hne hshort hlabel

end JobName

/-- What is left of a text without the white space around it is one text only. A name is read from the text just when that is a label;
the name is this label then, and it is read again from itself. Any other text is refused: as too short when nothing is left of it, as
too long when more than 63 characters are left, and for its form when it is neither of them and still no label. -/
theorem names_are_labels (text : String) :
    (∀ core : String, Text.IsTrimmed text.toList core.toList ↔ core = Text.trim text) ∧
    ((∃ name, JobName.read text = .ok name) ↔ IsLabel (Text.trim text)) ∧
    (∀ name, JobName.read text = .ok name ↔ name.text = Text.trim text ∧ JobName.read name.text = .ok name) ∧
    (JobName.read text = .error .tooShort ↔ Text.trim text = "") ∧
    (JobName.read text = .error .tooLong ↔ 63 < (Text.trim text).length) ∧
    (JobName.read text = .error .wrongForm ↔
      Text.trim text ≠ "" ∧ (Text.trim text).length ≤ 63 ∧ ¬ IsLabel (Text.trim text)) := by
  refine ⟨fun core => ?_, JobName.exists_read_iff, fun name => ?_, JobName.read_eq_tooShort_iff, JobName.read_eq_tooLong_iff,
    JobName.read_eq_wrongForm_iff⟩
  · rw [Text.isTrimmed_iff, Text.trim, ← String.toList_inj, String.toList_ofList]
  · rw [JobName.read_eq_ok_iff, JobName.read_eq_ok_iff, name.trim_text]
    exact (and_iff_left rfl).symm

/-- An ideographic space is white space too. -/
example : (JobName.read "\u3000train1 ").toOption.map JobName.text = some "train1" := rfl

/-- The run of the pattern cannot give back the last character, since no other one can stand there. -/
example : JobName.read "job-" = .error .wrongForm := rfl

end TrainingJobs

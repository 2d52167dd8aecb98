import TrainingJobs.Text.Blank
import TrainingJobs.Text.Pattern

/-!
# Names of jobs

A job name can name objects of the cluster: it has 1 to 63 characters, small letters, digits and hyphens, starts with a
letter and does not end with a hyphen. White space around a name does not belong to it. The form of a name is that of a
pattern (`namePattern`), which is found in the texts that have the form and in no others (`isIn_namePattern_iff`).
-/

namespace TrainingJobs

open Text (Pattern Place)

/-- The small ASCII letters. -/
def isSmallLetter (c : Char) : Bool := 'a' ≤ c && c ≤ 'z'

/-- The characters of names of objects. -/
def isLabelChar (c : Char) : Bool := isSmallLetter c || c.isDigit || c == '-'

/-- Whether characters have the form of a name: a small letter first, no hyphen last. -/
def hasLabelForm (cs : List Char) : Bool :=
  cs.head?.any isSmallLetter && cs.all isLabelChar && cs.getLast? != some '-'

/-- The characters that a name can end with. -/
def isLabelEnd (c : Char) : Bool := isSmallLetter c || c.isDigit

/-- A small letter, and behind it, if there is more, a run of characters of names and one that a name can end with. -/
def labelPattern : Pattern :=
  .seq (.one isSmallLetter) (.optional (.seq (.many isLabelChar) (.one isLabelEnd)))

/-- The pattern of names, `^[a-z]([-a-z0-9]*[a-z0-9])?$`. -/
def namePattern : Pattern := labelPattern.whole

section Form

variable {c : Char} {cs : List Char}

theorem isLabelEnd_iff : isLabelEnd c = true ↔ isLabelChar c = true ∧ c ≠ '-' := by
  have hhyphen : isLabelEnd '-' = false := by decide
  rw [isLabelChar, ← isLabelEnd, Bool.or_eq_true, beq_iff_eq]
  constructor
  · intro hc
    refine ⟨.inl hc, ?_⟩
    rintro rfl
    rw [hhyphen] at hc
    cases hc
  · rintro ⟨hc | hc, hne⟩
    · exact hc
    · exact absurd hc hne

/-- The pattern is found in a text of one letter, or of a letter, a run and a last character behind it. -/
theorem isIn_namePattern_iff_parts : namePattern.isIn cs = true ↔
    ∃ first rest, cs = first :: rest ∧ isSmallLetter first = true ∧
      (rest = [] ∨ ∃ run last, rest = run ++ [last] ∧ (∀ c ∈ run, isLabelChar c = true) ∧ isLabelEnd last = true) := by
  rw [namePattern, Pattern.isIn_whole_iff]
  constructor
  · intro h
    obtain ⟨between, hone, hrest⟩ := Pattern.mem_ends_seq_iff.1 h
    obtain ⟨first, hfirst, hcs, hbefore⟩ := Pattern.mem_ends_one_iff.1 hone
    refine ⟨first, between.behind, hcs, hfirst, ?_⟩
    rcases Pattern.mem_ends_optional_iff.1 hrest with hmore | rfl
    · -- The run ends one character before the text does.
      obtain ⟨near, hmany, hlast⟩ := Pattern.mem_ends_seq_iff.1 hmore
      obtain ⟨run, hrun, hbehind, -⟩ := Pattern.mem_ends_many_iff.1 hmany
      obtain ⟨last, hend, hnear, -⟩ := Pattern.mem_ends_one_iff.1 hlast
      exact .inr ⟨run, last, by rw [hbehind, hnear]; rfl, hrun, hend⟩
    · exact .inl rfl
  · rintro ⟨first, rest, rfl, hfirst, hrest⟩
    have hone : ⟨[first], rest⟩ ∈ (Pattern.one isSmallLetter).ends (.start (first :: rest)) :=
      Pattern.mem_ends_one_iff.2 ⟨first, hfirst, rfl, rfl⟩
    refine Pattern.mem_ends_seq_iff.2 ⟨_, hone, Pattern.mem_ends_optional_iff.2 ?_⟩
    rcases hrest with rfl | ⟨run, last, rfl, hrun, hend⟩
    · exact .inr rfl
    · have hmany : ⟨run.reverse ++ [first], [last]⟩ ∈ (Pattern.many isLabelChar).ends ⟨[first], run ++ [last]⟩ :=
        Pattern.mem_ends_many_iff.2 ⟨run, hrun, rfl, rfl⟩
      have hlast : Place.stop (first :: (run ++ [last])) ∈ (Pattern.one isLabelEnd).ends ⟨run.reverse ++ [first], [last]⟩ :=
        Pattern.mem_ends_one_iff.2 ⟨last, hend, rfl, by simp [Place.stop]⟩
      exact .inl (Pattern.mem_ends_seq_iff.2 ⟨_, hmany, hlast⟩)

/-- The pattern is found in the texts with the form of a name. -/
theorem isIn_namePattern_iff : namePattern.isIn cs = true ↔ hasLabelForm cs = true := by
  rw [isIn_namePattern_iff_parts]
  simp only [hasLabelForm, Bool.and_eq_true, List.all_eq_true, bne_iff_ne, ne_eq]
  constructor
  · rintro ⟨first, rest, rfl, hfirst, hrest⟩
    have hchar : isLabelChar first = true := by simp [isLabelChar, hfirst]
    have hhyphen : first ≠ '-' := by
      rintro rfl
      revert hfirst
      decide
    rcases hrest with rfl | ⟨run, last, rfl, hrun, hend⟩
    · simp [hfirst, hchar, hhyphen]
    · obtain ⟨hlast, hne⟩ := isLabelEnd_iff.1 hend
      refine ⟨⟨hfirst, fun c hc => ?_⟩, by simp [List.getLast?_cons, hne]⟩
      simp only [List.mem_cons, List.mem_append, List.not_mem_nil, or_false] at hc
      rcases hc with rfl | hc | rfl
      · exact hchar
      · exact hrun c hc
      · exact hlast
  · rintro ⟨⟨hfirst, hall⟩, hlast⟩
    cases cs with
    | nil => cases hfirst
    | cons first rest =>
      refine ⟨first, rest, rfl, hfirst, ?_⟩
      rcases List.eq_nil_or_concat rest with rfl | ⟨run, last, rfl⟩
      · exact .inl rfl
      · have hne : last ≠ '-' := by
          rintro rfl
          simp [List.getLast?_cons] at hlast
        have hend : isLabelEnd last = true := isLabelEnd_iff.2 ⟨hall last (by simp), hne⟩
        exact .inr ⟨run, last, List.concat_eq_append, fun c hc => hall c (by simp [hc]), hend⟩

end Form

/-- The greatest length of a name. -/
def greatestNameLength : Nat := 63

/-- A name of a job. -/
structure JobName where
  text : String
  nonempty : text.length ≥ 1
  short : text.length ≤ greatestNameLength
  form : hasLabelForm text.toList = true

instance : DecidableEq JobName := fun a b =>
  decidable_of_iff (a.text = b.text) ⟨fun h => by cases a; cases b; cases h; rfl, fun h => h ▸ rfl⟩

/-- Why a text is no name of a job. -/
inductive JobNameError
  | tooShort
  | tooLong
  | wrongForm
deriving DecidableEq, Repr

/-- Reads a name of a job. The length is looked at before the form. -/
def JobName.read (text : String) : Except JobNameError JobName :=
  let name := Text.trim text
  if h₁ : name.length ≥ 1 then
    if h₂ : name.length ≤ greatestNameLength then
      if h₃ : namePattern.isIn name.toList = true then .ok ⟨name, h₁, h₂, isIn_namePattern_iff.1 h₃⟩ else .error .wrongForm
    else .error .tooLong
  else .error .tooShort

end TrainingJobs

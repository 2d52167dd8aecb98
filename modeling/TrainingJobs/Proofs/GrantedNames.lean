import TrainingJobs.Proofs.FamilyNumbers
import TrainingJobs.Proofs.NameLabels

/-!
# Names that are granted

A name is looked at before it is registered, and a number is put behind it afterwards. The name with a number has the form of a name
still, but it can be too long: it names a job, as it is, just when there is room for a hyphen and the digits
(`granted_names_can_name_iff`). A name of 63 characters is granted with a number that makes it one of 65
(`granted_name_of_longest_false`).
-/

namespace TrainingJobs

/-- A text is read as a name of a job, and that name is the text itself. -/
def CanName (text : String) : Prop := ∃ name : JobName, JobName.read text = .ok name ∧ name.text = text

namespace GrantedNamesAux

/-! ## Texts with the form of a name -/

theorem isLabelChar_of_isDigit {c : Char} (h : c.isDigit = true) : isLabelChar c = true := by
  rw [isLabelChar, h, Bool.or_true]
  rfl

/-- Whether a text with the form of a name is one depends on its length only. -/
theorem read_of_form {text : String} (h : hasLabelForm text.toList = true) :
    (text.length ≤ greatestNameLength → CanName text) ∧
      (greatestNameLength < text.length → JobName.read text = .error .tooLong) := by
  have htrim := trim_of_form h
  constructor
  · intro hshort
    have hlabel : IsLabel (Text.trim text) := htrim.symm ▸ isLabel_iff.2 ⟨hshort, h⟩
    obtain ⟨name, hread⟩ := JobName.exists_read_iff.2 hlabel
    exact ⟨name, hread, (JobName.read_eq_ok_iff.1 hread).trans htrim⟩
  · intro hlong
    rw [JobName.read_eq_tooLong_iff, htrim]
    exact hlong

theorem canName_iff_of_form {text : String} (h : hasLabelForm text.toList = true) :
    CanName text ↔ text.length ≤ greatestNameLength := by
  refine ⟨?_, (read_of_form h).1⟩
  rintro ⟨name, -, rfl⟩
  exact name.short

/-- A name with a number has the form of a name. -/
theorem hasLabelForm_candidateName (base : JobName) (index : Nat) :
    hasLabelForm (candidateName base.text index).toList = true := by
  by_cases hindex : index = 0
  · rw [hindex, candidateName_zero]
    exact base.form
  · have hdigits : (toString index).toList = Nat.toDigits 10 index := String.toList_ofList
    have hchars : (candidateName base.text index).toList = base.text.toList ++ '-' :: Nat.toDigits 10 index := by
      rw [candidateName_of_ne_zero hindex, String.toList_append, String.toList_append, hdigits, List.append_assoc]
      rfl
    have hisDigit : ∀ c ∈ Nat.toDigits 10 index, c.isDigit = true := fun c hc =>
      Nat.isDigit_of_mem_toDigits (by decide) (by decide) hc
    have hform := base.form
    simp only [hasLabelForm, Bool.and_eq_true, List.all_eq_true, bne_iff_ne, ne_eq] at hform
    obtain ⟨⟨hfirst, hall⟩, -⟩ := hform
    simp only [hasLabelForm, hchars, Bool.and_eq_true, List.all_eq_true, bne_iff_ne, ne_eq]
    refine ⟨⟨?_, ?_⟩, ?_⟩
    · -- The first character is that of the name itself.
      cases hcs : base.text.toList with
      | nil =>
        rw [hcs] at hfirst
        cases hfirst
      | cons c rest =>
        rw [hcs] at hfirst
        exact hfirst
    · intro c hc
      rcases List.mem_append.1 hc with hc | hc
      · exact hall c hc
      · rcases List.mem_cons.1 hc with rfl | hc
        · rfl
        · exact isLabelChar_of_isDigit (hisDigit c hc)
    · -- The last one is a digit.
      intro hlast
      obtain ⟨d, hd⟩ : ∃ d, (Nat.toDigits 10 index).getLast? = some d :=
        Option.ne_none_iff_exists'.1 fun hnone => Nat.toDigits_ne_nil (List.getLast?_eq_none_iff.1 hnone)
      rw [List.append_cons, List.getLast?_append, hd, Option.some_or] at hlast
      obtain rfl := Option.some.inj hlast
      exact absurd (hisDigit '-' (List.mem_of_getLast? hd)) (by decide)

/-! ## Numbers that are granted -/

section Granted

variable {requested : JobName} {space : String} {xs : List Exchange} {id : JobIdentity}

/-- The number that is tried behind a listing is at most one beyond the words, since those that are read from labels are words. -/
theorem familyIndex_nextCandidate_le (requested : JobName) (space : String) (maps : List (String × ConfigMap)) :
    (Registration.nextCandidate requested space maps).familyIndex ≤ maxWord + 1 := by
  obtain ⟨-, -, hbelow⟩ := leastFree_spec ((maps.map fun e => Record.ofConfigMap e.1 space e.2).map (·.familyIndex))
  refine Nat.le_of_not_lt fun hlt => ?_
  have hmem := hbelow (maxWord + 1) (Nat.le_add_left 1 maxWord) hlt
  simp only [List.map_map, List.mem_map, Function.comp_apply] at hmem
  obtain ⟨e, -, hindex⟩ := hmem
  have hword : (Record.ofConfigMap e.1 space e.2).familyIndex ≤ maxWord := by
    rw [Record.ofConfigMap, Record.ofLabels]
    cases hread : ((e.2.labels.getD .empty).get? Keys.familyIndexLabel).bind (readNatural? maxWord) with
    | none => exact Nat.zero_le _
    | some n =>
      obtain ⟨text, -, htext⟩ := Option.bind_eq_some_iff.1 hread
      exact le_of_readNatural? htext
  omega

/-- A registration grants the name of a number that is no greater. -/
theorem familyIndex_le_of_granted {retries : Nat} {autoName : Bool}
    (h : (Registration.register retries requested space autoName).Yields xs (.ok id)) :
    id.resolved = candidateName requested.text id.familyIndex ∧ id.familyIndex ≤ maxWord + 1 := by
  have htried : ∀ {left : Nat} {ys : List Exchange} {result : Except RegistrationError JobIdentity},
      Registration.Tried requested space retries left ys result → result = .ok id →
      id.resolved = candidateName requested.text id.familyIndex ∧ id.familyIndex ≤ maxWord + 1 := by
    intro left ys result ht
    induction ht with
    | granted maps =>
      rintro ⟨⟩
      exact ⟨rfl, familyIndex_nextCandidate_le requested space maps⟩
    | lost maps _ ih => exact ih
    | exhausted | unlisted | refused => exact nofun
  cases Registration.register_registered h with
  | granted => exact ⟨rfl, Nat.zero_le _⟩
  | numbered _ ht => exact htried ht rfl

end Granted

/-- The members of a family from 0 on can be all that a namespace holds. -/
theorem exists_numbered (requested : JobName) (space : String) {n : Nat} (hn : n ≤ maxWord + 1) :
    ∃ w : World, w.Numbered requested space (Finset.range n) := by
  induction n with
  | zero => exact ⟨{}, World.numbered_empty ⟨rfl, rfl, rfl, rfl⟩ fun _ => rfl⟩
  | succ n ih =>
    obtain ⟨w, hw⟩ := ih (Nat.le_of_succ_le hn)
    have hput := hw.put (Nat.le_of_succ_le_succ hn)
    rw [← Finset.range_add_one] at hput
    exact ⟨_, hput⟩

/-- So every number that is a word is granted at some time. -/
theorem exists_granted (requested : JobName) (space : String) {index : Nat} (hindex : index ≤ maxWord) :
    ∃ w : World, w.Quiet ∧ ((Registration.register 1 requested space true).run w).1 =
      .ok ⟨requested, candidateName requested.text index, index⟩ := by
  obtain ⟨w, hw⟩ := exists_numbered requested space (Nat.le_succ_of_le hindex)
  have hgranted := hw.run_register (Nat.le_refl 1)
  rw [leastUnused_range] at hgranted
  exact ⟨w, hw.quiet, hgranted⟩

/-- How many digits a number has. -/
theorem length_toString_le_iff {index digits : Nat} (h : 0 < digits) :
    (toString index).length ≤ digits ↔ index < Nat.pow 10 digits := by
  have hlength : (toString index).length = (Nat.toDigits 10 index).length := by
    rw [← String.length_toList]
    exact congrArg List.length String.toList_ofList
  rw [hlength]
  exact Nat.length_toDigits_le_iff (by decide) h

/-- The name of a member of a family is a name of a job as long as there is room for its number. -/
theorem canName_candidateName_iff (base : JobName) (index : Nat) :
    CanName (candidateName base.text index) ↔
      index = 0 ∨ base.text.length + 1 + (toString index).length ≤ greatestNameLength := by
  rw [canName_iff_of_form (hasLabelForm_candidateName base index)]
  by_cases hindex : index = 0
  · rw [hindex, candidateName_zero]
    exact iff_of_true base.short (.inl rfl)
  · rw [length_candidateName hindex]
    exact (or_iff_right hindex).symm

end GrantedNamesAux

open GrantedNamesAux

/-- The name of a member of a family is a name of a job, as it is, just when it is that of the family or there is room in it for a
hyphen and the digits of its number; else it is too long. Any number that is a word is granted sooner or later, so that all names that
are granted for one are names of jobs just when it leaves room for a hyphen and ten digits. -/
theorem granted_names_can_name_iff (requested : JobName) :
    (∀ index, (CanName (candidateName requested.text index) ↔
        index = 0 ∨ requested.text.length + 1 + (toString index).length ≤ greatestNameLength) ∧
      (¬CanName (candidateName requested.text index) →
        JobName.read (candidateName requested.text index) = .error .tooLong)) ∧
    (∀ space, ∀ index ≤ maxWord, ∃ w : World, w.Quiet ∧ ((Registration.register 1 requested space true).run w).1 =
      .ok ⟨requested, candidateName requested.text index, index⟩) ∧
    ((∀ retries space autoName w id, ((Registration.register retries requested space autoName).run w).1 = .ok id →
      CanName id.resolved) ↔ requested.text.length + 1 + 10 ≤ greatestNameLength) := by
  refine ⟨fun index => ⟨canName_candidateName_iff requested index, fun hnot => ?_⟩, fun space index hindex =>
    exists_granted requested space hindex, ?_, ?_⟩
  · have hform := hasLabelForm_candidateName requested index
    rw [canName_iff_of_form hform, Nat.not_le] at hnot
    exact (read_of_form hform).2 hnot
  · intro hall
    -- The ninth power of ten is granted at some time, and has ten digits.
    obtain ⟨index, hword, hdigits⟩ : ∃ index, index ≤ maxWord ∧ ¬(toString index).length ≤ 9 :=
      ⟨Nat.pow 10 9, by decide, fun hle => Nat.lt_irrefl _ ((length_toString_le_iff (by decide)).1 hle)⟩
    have hindex : index ≠ 0 := by
      rintro rfl
      exact hdigits (by decide)
    obtain ⟨w, -, hgranted⟩ := exists_granted requested "" hword
    have hname := hall 1 "" true w _ hgranted
    have hroom := ((canName_candidateName_iff requested index).1 hname).resolve_left hindex
    omega
  · intro hroom retries space autoName w id hid
    have hyields := (Registration.register retries requested space autoName).run_yields w
    rw [hid] at hyields
    obtain ⟨hresolved, hindex⟩ := familyIndex_le_of_granted hyields
    have hdigits : (toString id.familyIndex).length ≤ 10 :=
      (length_toString_le_iff (by decide)).2 (Nat.lt_of_le_of_lt hindex (by decide))
    rw [hresolved, canName_candidateName_iff]
    exact .inr (by omega)

/-- All names that are granted for `job-1` are names of jobs. -/
theorem granted_names_can_name_of_job_one :
    JobName.jobOne.text.length + 1 + 10 ≤ greatestNameLength ∧
      ((Registration.register 5 .jobOne "team-a" true).run namedAlike).1 = .ok ⟨.jobOne, "job-1-1", 1⟩ ∧ CanName "job-1-1" := by
  have hroom : JobName.jobOne.text.length + 1 + 10 ≤ greatestNameLength := by decide
  have hgranted : ((Registration.register 5 .jobOne "team-a" true).run namedAlike).1 = .ok ⟨.jobOne, "job-1-1", 1⟩ := rfl
  have hname := (granted_names_can_name_iff .jobOne).2.2.2 hroom 5 "team-a" true namedAlike _ hgranted
  exact ⟨hroom, hgranted, hname⟩

/-- A name of a job of 63 characters. -/
def JobName.longest : JobName := ⟨String.ofList (List.replicate 63 'a'), by decide, by decide, by decide⟩

/-- A world in which it is taken. -/
def longestTaken : World :=
  { server := { maps := .ofList [(⟨"team-a", JobName.longest.text⟩, ⟨(Record.candidate .longest "team-a" 0).toConfigMap, 1⟩)] } }

/-- Another job of that name is granted one of 65 characters there, which is no name of a job. -/
theorem granted_name_of_longest_false :
    ((Registration.register 5 .longest "team-a" true).run longestTaken).1 =
        .ok ⟨.longest, candidateName JobName.longest.text 1, 1⟩ ∧
      (candidateName JobName.longest.text 1).length = 65 ∧ ¬CanName (candidateName JobName.longest.text 1) := by
  have hlength : (candidateName JobName.longest.text 1).length = 65 := by decide
  refine ⟨by rfl, hlength, ?_⟩
  rw [canName_iff_of_form (hasLabelForm_candidateName .longest 1), hlength]
  decide

end TrainingJobs

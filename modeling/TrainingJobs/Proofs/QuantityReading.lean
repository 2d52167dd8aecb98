import TrainingJobs.Proofs.QuantityForms

/-!
# Reading quantities

What `Quantity.read` answers follows from the form of the text without the white space around it: whether it has one with digits of
ASCII, and whether its letters are a unit (`quantity_read_by_form`).
-/

namespace TrainingJobs.Quantity

variable {mantissa exponent : List Char} {text unit : String}

/-! ## Numbers of forms -/

theorem takeSign_snd (cs : List Char) : (takeSign cs).2 = (takeSignText cs).2 := by
  unfold takeSign
  split
  · rfl
  · rfl
  · rename_i hminus hplus
    rw [takeSignText]
    · exact hplus
    · exact hminus

theorem exists_readExponent? (h : exponent = [] ∨ IsExponent .ascii exponent) : ∃ k, readExponent? exponent = some (k, []) := by
  rcases h with rfl | hexponent
  · exact ⟨0, rfl⟩
  · cases hexponent with
    | @marked mark sign digits hmark hsign hne hdigits =>
      have hbody : (takeSign (sign ++ digits)).2 = digits := by
        rw [takeSign_snd, ← List.append_nil digits, takeSignText_append hsign (not_sign_of_digits hne hdigits)]
      have hread : takeDigits digits = (digits, []) := by
        have hall : takeDigits (digits ++ []) = (digits, []) := takeDigits_append hdigits nofun
        rwa [List.append_nil] at hall
      rw [readExponent?, if_pos hmark]
      simp only [hbody, hread]
      exact ⟨_, rfl⟩

theorem exists_readDecimal? (h : IsMantissa .ascii mantissa) (hexponent : exponent = [] ∨ IsExponent .ascii exponent) :
    ∃ x, readDecimal? (mantissa ++ exponent) = some x := by
  obtain ⟨k, hk⟩ := exists_readExponent? hexponent
  have hstart := startsAlpha_exponent hexponent
  have hdigit : ∀ c ∈ exponent.head?, c.isDigit = false := fun c hc => (plain_of_isAlpha (hstart c hc)).1
  cases h with
  | whole hne hdigits =>
    simp only [readDecimal?, takeDigits_append hdigits hdigit]
    split
    · exact absurd rfl (plain_of_isAlpha (hstart '.' rfl)).2.1
    · simp only [hk]
      rw [if_neg (by simp [hne])]
      exact ⟨_, rfl⟩
  | @pointed digits fraction hne hdigits hfraction =>
    rw [List.append_assoc, List.cons_append]
    simp only [readDecimal?, takeDigits_append hdigits not_isDigit_point, takeDigits_append hfraction hdigit, hk]
    rw [if_neg (by simp [hne])]
    exact ⟨_, rfl⟩
  | @fraction fraction hne hdigits =>
    have hwhole : takeDigits ('.' :: (fraction ++ exponent)) = ([], '.' :: (fraction ++ exponent)) := rfl
    rw [List.cons_append]
    simp only [readDecimal?, hwhole, takeDigits_append hdigits hdigit, hk]
    rw [if_neg (by simp [hne])]
    exact ⟨_, rfl⟩

/-- The number of a form can be read. -/
theorem readFloat?_number (f : Form .ascii) : ∃ x, readFloat? (String.ofList f.number) = some x := by
  obtain ⟨x, hx⟩ := exists_readDecimal? f.isMantissa f.isExponent
  have hbody : (takeSign (String.ofList f.number).toList).2 = f.mantissa ++ f.exponent := by
    rw [String.toList_ofList, Form.number, List.append_assoc, takeSign_snd, takeSignText_append f.isSign f.isMantissa.not_sign]
  rw [readFloat?]
  dsimp only
  rw [hbody, hx]
  exact ⟨_, rfl⟩

/-! ## Answers -/

/-- The units of quantities. -/
def units : List String := ["", "n", "u", "m", "k", "M", "G", "T", "P", "E", "Ki", "Mi", "Gi", "Ti", "Pi", "Ei"]

theorem scale?_eq_none_iff : scale? unit = none ↔ unit ∉ units := by
  unfold scale? units
  split <;> simp_all

/-- Without the white space around it, a text is a form with digits of ASCII and the given letters. -/
def ReadsAs (d : DigitClass) (text unit : String) : Prop :=
  ∃ f : Form d, f.IsAscii ∧ f.text = Text.trimBlanks text.toList ∧ String.ofList f.letters = unit

theorem readsAs_iff {d : DigitClass} :
    ReadsAs d text unit ↔ ∃ f : Form .ascii, f.text = Text.trimBlanks text.toList ∧ String.ofList f.letters = unit :=
  Form.exists_ascii_iff (P := fun whole letters => whole = Text.trimBlanks text.toList ∧ String.ofList letters = unit)

/-- Whatever other digits there are, the letters are those of the only form with digits of ASCII. -/
theorem readsAs_iff_of_form {d : DigitClass} {f : Form .ascii} (h : f.text = Text.trimBlanks text.toList) :
    ReadsAs d text unit ↔ unit = String.ofList f.letters := by
  rw [readsAs_iff]
  constructor
  · rintro ⟨g, hg, rfl⟩
    rw [(Form.number_eq (hg.trans h.symm)).2]
  · rintro rfl
    exact ⟨f, h, rfl⟩

theorem ReadsAs.exists_form {d : DigitClass} (h : ReadsAs d text unit) :
    ∃ f : Form .ascii, f.text = Text.trimBlanks text.toList := by
  obtain ⟨f, hf, -⟩ := readsAs_iff.1 h
  exact ⟨f, hf⟩

/-- A form with a unit is read. -/
theorem exists_read_of_form {f : Form .ascii} (h : f.text = Text.trimBlanks text.toList) (hunit : String.ofList f.letters ∈ units) :
    ∃ x, read text = .ok x := by
  obtain ⟨x, hx⟩ := readFloat?_number f
  rw [read, ← h, split?_text]
  dsimp only
  rw [hx]
  dsimp only
  cases hscale : scale? (String.ofList f.letters) with
  | none => exact absurd hunit (scale?_eq_none_iff.1 hscale)
  | some scale => exact ⟨_, rfl⟩

/-- A form with other letters is refused for them. -/
theorem read_of_form {f : Form .ascii} (h : f.text = Text.trimBlanks text.toList) (hunit : String.ofList f.letters ∉ units) :
    read text = .error (.unknownUnit text (String.ofList f.letters)) := by
  obtain ⟨x, hx⟩ := readFloat?_number f
  rw [read, ← h, split?_text]
  dsimp only
  rw [hx]
  dsimp only
  rw [scale?_eq_none_iff.2 hunit]

/-- What has no form is refused. -/
theorem read_of_no_form (h : ¬ ∃ f : Form .ascii, f.text = Text.trimBlanks text.toList) :
    read text = .error (.unreadable text) := by
  rw [read]
  cases hsplit : split? (Text.trimBlanks text.toList) with
  | none => rfl
  | some parts =>
    obtain ⟨f, hf, -⟩ := exists_form_of_split? hsplit
    exact absurd ⟨f, hf⟩ h

/-- What is answered, by the form with digits of ASCII. -/
inductive ReadsTo (text : String) : Except QuantityError Float → Prop
  | ok {f : Form .ascii} {x : Float} (h : f.text = Text.trimBlanks text.toList) (hunit : String.ofList f.letters ∈ units) :
    ReadsTo text (.ok x)
  | unknownUnit {f : Form .ascii} (h : f.text = Text.trimBlanks text.toList) (hunit : String.ofList f.letters ∉ units) :
    ReadsTo text (.error (.unknownUnit text (String.ofList f.letters)))
  | unreadable (h : ¬ ∃ f : Form .ascii, f.text = Text.trimBlanks text.toList) : ReadsTo text (.error (.unreadable text))

theorem readsTo_read (text : String) : ReadsTo text (read text) := by
  by_cases hform : ∃ f : Form .ascii, f.text = Text.trimBlanks text.toList
  · obtain ⟨f, hf⟩ := hform
    by_cases hunit : String.ofList f.letters ∈ units
    · obtain ⟨x, hx⟩ := exists_read_of_form hf hunit
      rw [hx]
      exact .ok hf hunit
    · rw [read_of_form hf hunit]
      exact .unknownUnit hf hunit
  · rw [read_of_no_form hform]
    exact .unreadable hform

theorem exists_read_iff (d : DigitClass) : (∃ x, read text = .ok x) ↔ ∃ unit ∈ units, ReadsAs d text unit := by
  have hanswer := readsTo_read text
  generalize read text = answer at hanswer ⊢
  cases hanswer with
  | ok hf hunit => exact iff_of_true ⟨_, rfl⟩ ⟨_, hunit, (readsAs_iff_of_form hf).2 rfl⟩
  | unknownUnit hf hunit =>
    refine iff_of_false nofun ?_
    rintro ⟨unit, hknown, hreads⟩
    rw [(readsAs_iff_of_form hf).1 hreads] at hknown
    exact hunit hknown
  | unreadable hnone =>
    refine iff_of_false nofun ?_
    rintro ⟨unit, -, hreads⟩
    exact hnone hreads.exists_form

theorem read_eq_unknownUnit_iff (d : DigitClass) {whole : String} :
    read text = .error (.unknownUnit whole unit) ↔ whole = text ∧ unit ∉ units ∧ ReadsAs d text unit := by
  have hanswer := readsTo_read text
  generalize read text = answer at hanswer ⊢
  cases hanswer with
  | ok hf hunit =>
    refine iff_of_false nofun ?_
    rintro ⟨-, hother, hreads⟩
    rw [(readsAs_iff_of_form hf).1 hreads] at hother
    exact hother hunit
  | unknownUnit hf hunit =>
    rw [readsAs_iff_of_form hf]
    constructor
    · intro h
      cases h
      exact ⟨rfl, hunit, rfl⟩
    · rintro ⟨rfl, -, rfl⟩
      rfl
  | unreadable hnone =>
    refine iff_of_false nofun ?_
    rintro ⟨-, -, hreads⟩
    exact hnone hreads.exists_form

theorem read_eq_unreadable_iff (d : DigitClass) {whole : String} :
    read text = .error (.unreadable whole) ↔ whole = text ∧ ∀ unit, ¬ ReadsAs d text unit := by
  have hanswer := readsTo_read text
  generalize read text = answer at hanswer ⊢
  cases hanswer with
  | ok hf _ => exact iff_of_false nofun fun h => h.2 _ ((readsAs_iff_of_form hf).2 rfl)
  | unknownUnit hf _ => exact iff_of_false nofun fun h => h.2 _ ((readsAs_iff_of_form hf).2 rfl)
  | unreadable hnone =>
    constructor
    · intro h
      cases h
      exact ⟨rfl, fun unit hreads => hnone hreads.exists_form⟩
    · rintro ⟨rfl, -⟩
      rfl

/-- Whatever digits there are, a text has one form at most without the white space around it, and its letters do not begin with an
exponent. The text is read just when it has a form with digits of ASCII and with a unit for letters. With other letters it is refused
for them, and without such a form it is refused, with the whole text in either case. -/
theorem quantity_read_by_form (d : DigitClass) (text : String) :
    (∀ f g : Form d, f.text = Text.trimBlanks text.toList → g.text = Text.trimBlanks text.toList →
      f.number = g.number ∧ f.letters = g.letters) ∧
    (∀ f : Form d, f.text = Text.trimBlanks text.toList → ∀ front rest, f.letters = front ++ rest → ¬ IsExponent d front) ∧
    ((∃ x, read text = .ok x) ↔ ∃ unit ∈ units, ReadsAs d text unit) ∧
    (∀ whole unit, read text = .error (.unknownUnit whole unit) ↔ whole = text ∧ unit ∉ units ∧ ReadsAs d text unit) ∧
    ∀ whole, read text = .error (.unreadable whole) ↔ whole = text ∧ ∀ unit, ¬ ReadsAs d text unit := by
  refine ⟨fun f g hf hg => Form.number_eq (hf.trans hg.symm), fun f _ front rest hletters => ?_, exists_read_iff d,
    fun _ _ => read_eq_unknownUnit_iff d, fun _ => read_eq_unreadable_iff d⟩
  exact not_isExponent_of_letters (hletters ▸ f.areLetters)

/-- Digits of another script make a form too, which is refused whatever its letters are. -/
example : (∃ f : Form .decimal, f.text = "\u0663Zi".toList) ∧ read "\u0663Zi" = .error (.unreadable "\u0663Zi") :=
  ⟨⟨⟨[], ['\u0663'], [], ['Z', 'i'], .inl rfl, .whole (by decide) (by decide), .inl rfl, by simp⟩, rfl⟩, rfl⟩

end TrainingJobs.Quantity

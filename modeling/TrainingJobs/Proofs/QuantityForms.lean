import Mathlib.Data.List.TakeWhile
import TrainingJobs.Quantity
import TrainingJobs.Text.Digits
import TrainingJobs.Text.Front

/-!
# The form of quantities

A quantity in writing is a sign, digits with at most one point, an exponent and letters, of which only the digits must be there
(`Form`). The letters are all that stands behind the last character that is none, so a text has one form at most (`Form.number_eq`).
`split?` finds the form with digits of ASCII when there is one (`split?_text`), and nothing else (`exists_form_of_split?`).
-/

namespace TrainingJobs.Quantity

open Text (takeWhile_append_eq dropWhile_append_eq)

/-! ## Forms -/

/-- A sign or none. -/
def IsSign (cs : List Char) : Prop := cs = [] ∨ cs = ['+'] ∨ cs = ['-']

/-- All characters are digits of a class. -/
def AreDigits (d : DigitClass) (cs : List Char) : Prop := ∀ c ∈ cs, d.has c = true

instance (d : DigitClass) (cs : List Char) : Decidable (AreDigits d cs) :=
  List.decidableBAll (d.has · = true) cs

/-- Digits with a point or without one. At least one digit is there. -/
inductive IsMantissa (d : DigitClass) : List Char → Prop
  | whole {digits : List Char} (hne : digits ≠ []) (h : AreDigits d digits) : IsMantissa d digits
  | pointed {digits fraction : List Char} (hne : digits ≠ []) (h : AreDigits d digits) (hfraction : AreDigits d fraction) :
    IsMantissa d (digits ++ '.' :: fraction)
  | fraction {fraction : List Char} (hne : fraction ≠ []) (h : AreDigits d fraction) : IsMantissa d ('.' :: fraction)

/-- The mark of an exponent, a sign or none, and at least one digit. -/
inductive IsExponent (d : DigitClass) : List Char → Prop
  | marked {mark : Char} {sign digits : List Char} (hmark : mark = 'e' ∨ mark = 'E') (hsign : IsSign sign) (hne : digits ≠ [])
    (h : AreDigits d digits) : IsExponent d (mark :: (sign ++ digits))

/-- A quantity in writing. -/
structure Form (d : DigitClass) where
  sign : List Char
  mantissa : List Char
  exponent : List Char
  letters : List Char
  isSign : IsSign sign
  isMantissa : IsMantissa d mantissa
  isExponent : exponent = [] ∨ IsExponent d exponent
  areLetters : ∀ c ∈ letters, c.isAlpha = true

namespace Form

variable {d : DigitClass}

/-- The number of a quantity. -/
def number (f : Form d) : List Char := f.sign ++ f.mantissa ++ f.exponent

/-- The whole text of a quantity. -/
def text (f : Form d) : List Char := f.number ++ f.letters

end Form

variable {d d' : DigitClass} {cs front rest sign mantissa exponent digits letters : List Char} {c : Char}

/-! ## One form at most -/

/-- The last character is no letter. -/
def EndsPlain (cs : List Char) : Prop := ∃ front c, cs = front ++ [c] ∧ c.isAlpha = false

theorem EndsPlain.append (front : List Char) (h : EndsPlain cs) : EndsPlain (front ++ cs) := by
  obtain ⟨between, c, rfl, hc⟩ := h
  exact ⟨front ++ between, c, (List.append_assoc _ _ _).symm, hc⟩

theorem endsPlain_digits (hne : digits ≠ []) (h : AreDigits d digits) : EndsPlain digits := by
  refine ⟨digits.dropLast, digits.getLast hne, (List.dropLast_concat_getLast hne).symm, ?_⟩
  exact DigitClass.isAlpha_eq_false (h _ (List.getLast_mem hne))

theorem IsMantissa.endsPlain (h : IsMantissa d cs) : EndsPlain cs := by
  have hpoint : ∀ {fraction : List Char}, AreDigits d fraction → EndsPlain ('.' :: fraction) := by
    intro fraction hdigits
    by_cases hne : fraction = []
    · exact ⟨[], '.', by rw [hne, List.nil_append], by decide⟩
    · exact (endsPlain_digits hne hdigits).append ['.']
  cases h with
  | whole hne hdigits => exact endsPlain_digits hne hdigits
  | pointed _ _ hfraction => exact (hpoint hfraction).append _
  | fraction _ hdigits => exact hpoint hdigits

theorem IsExponent.endsPlain (h : IsExponent d cs) : EndsPlain cs := by
  cases h with
  | @marked mark sign digits _ _ hne hdigits => exact (endsPlain_digits hne hdigits).append (mark :: sign)

theorem Form.endsPlain_number (f : Form d) : EndsPlain f.number := by
  rcases f.isExponent with hnone | hexponent
  · rw [number, hnone, List.append_nil]
    exact f.isMantissa.endsPlain.append _
  · exact hexponent.endsPlain.append _

/-- Letters behind a character that is none are all letters at the end. -/
theorem takeWhile_reverse_of_endsPlain (h : EndsPlain front) (hletters : ∀ c ∈ letters, c.isAlpha = true) :
    (front ++ letters).reverse.takeWhile Char.isAlpha = letters.reverse := by
  obtain ⟨before, c, rfl, hc⟩ := h
  rw [List.reverse_append]
  refine takeWhile_append_eq (fun a ha => hletters a (List.mem_reverse.1 ha)) fun a ha => ?_
  rw [List.reverse_append] at ha
  cases ha
  exact hc

/-- A text has one form at most. -/
theorem Form.number_eq {f g : Form d} (h : f.text = g.text) : f.number = g.number ∧ f.letters = g.letters := by
  have hletters : f.letters = g.letters := by
    have hf := takeWhile_reverse_of_endsPlain f.endsPlain_number f.areLetters
    have hg := takeWhile_reverse_of_endsPlain g.endsPlain_number g.areLetters
    rw [← text, h, text, hg] at hf
    exact (List.reverse_inj.1 hf).symm
  rw [text, text, hletters] at h
  exact ⟨List.append_cancel_right h, hletters⟩

/-- Letters do not begin with an exponent, for there is a digit in it. -/
theorem not_isExponent_of_letters (hletters : ∀ c ∈ front ++ rest, c.isAlpha = true) : ¬ IsExponent d front := by
  intro h
  obtain ⟨before, c, rfl, hc⟩ := h.endsPlain
  have := hletters c (by simp)
  rw [hc] at this
  cases this

/-! ## Digits of ASCII -/

theorem IsMantissa.imp (h : IsMantissa d cs) (himp : ∀ c ∈ cs, d.has c = true → d'.has c = true) : IsMantissa d' cs := by
  cases h with
  | whole hne hdigits => exact .whole hne fun c hc => himp c hc (hdigits c hc)
  | pointed hne hdigits hfraction =>
    exact .pointed hne (fun c hc => himp c (by simp [hc]) (hdigits c hc)) fun c hc => himp c (by simp [hc]) (hfraction c hc)
  | fraction hne hdigits => exact .fraction hne fun c hc => himp c (by simp [hc]) (hdigits c hc)

theorem IsExponent.imp (h : IsExponent d cs) (himp : ∀ c ∈ cs, d.has c = true → d'.has c = true) : IsExponent d' cs := by
  cases h with
  | marked hmark hsign hne hdigits => exact .marked hmark hsign hne fun c hc => himp c (by simp [hc]) (hdigits c hc)

namespace Form

/-- All digits of the number are digits of ASCII. -/
def IsAscii (f : Form d) : Prop := ∀ c ∈ f.number, d.has c = true → c.isDigit = true

/-- The same parts with another class of digits. -/
def cast (f : Form d) (d' : DigitClass) (himp : ∀ c ∈ f.number, d.has c = true → d'.has c = true) : Form d' :=
  { f with
    isMantissa := f.isMantissa.imp fun c hc => himp c (by simp [number, hc])
    isExponent := f.isExponent.imp_right fun h => h.imp fun c hc => himp c (by simp [number, hc]) }

end Form

theorem IsSign.eq_of_mem (h : IsSign cs) (hc : c ∈ cs) : c = '+' ∨ c = '-' := by
  rcases h with rfl | rfl | rfl
  · cases hc
  · exact .inl (List.mem_singleton.1 hc)
  · exact .inr (List.mem_singleton.1 hc)

theorem IsMantissa.cases_mem (h : IsMantissa d cs) (hc : c ∈ cs) : d.has c = true ∨ c = '.' := by
  have hpoint : ∀ {fraction : List Char}, AreDigits d fraction → c ∈ '.' :: fraction → d.has c = true ∨ c = '.' := by
    intro fraction hdigits hmem
    rcases List.mem_cons.1 hmem with rfl | hmem
    · exact .inr rfl
    · exact .inl (hdigits c hmem)
  cases h with
  | whole _ hdigits => exact .inl (hdigits c hc)
  | pointed _ hdigits hfraction =>
    rcases List.mem_append.1 hc with hc | hc
    · exact .inl (hdigits c hc)
    · exact hpoint hfraction hc
  | fraction _ hdigits => exact hpoint hdigits hc

/-- The characters of a number are digits and a few marks. -/
theorem Form.cases_mem_number (f : Form d) (hc : c ∈ f.number) : d.has c = true ∨ c ∈ ['+', '-', '.', 'e', 'E'] := by
  rcases List.mem_append.1 hc with hc | hc
  · rcases List.mem_append.1 hc with hc | hc
    · rcases f.isSign.eq_of_mem hc with rfl | rfl
      · exact .inr (by decide)
      · exact .inr (by decide)
    · rcases f.isMantissa.cases_mem hc with hdigit | rfl
      · exact .inl hdigit
      · exact .inr (by decide)
  · rcases f.isExponent with hnone | hexponent
    · rw [hnone] at hc
      cases hc
    · generalize f.exponent = exponent at hexponent hc
      cases hexponent with
      | marked hmark hsign _ hdigits =>
        rcases List.mem_cons.1 hc with rfl | hc
        · rcases hmark with rfl | rfl
          · exact .inr (by decide)
          · exact .inr (by decide)
        · rcases List.mem_append.1 hc with hc | hc
          · rcases hsign.eq_of_mem hc with rfl | rfl
            · exact .inr (by decide)
            · exact .inr (by decide)
          · exact .inl (hdigits c hc)

/-- A character of ASCII that has a glyph. -/
def IsGraphic (c : Char) : Prop := 33 ≤ c.toNat ∧ c.toNat < 128

instance : Decidable (IsGraphic c) := inferInstanceAs (Decidable (33 ≤ c.toNat ∧ c.toNat < 128))

/-- A number with digits of ASCII is written in ASCII. -/
theorem Form.isGraphic_of_mem_number (f : Form .ascii) (hc : c ∈ f.number) : IsGraphic c := by
  have hmarks : ∀ mark ∈ ['+', '-', '.', 'e', 'E'], IsGraphic mark := by simp [IsGraphic]
  rcases f.cases_mem_number hc with hdigit | hmark
  · have := Text.isDigit_iff.1 hdigit
    exact ⟨by omega, by omega⟩
  · exact hmarks c hmark

theorem Form.isGraphic_of_mem_text (f : Form .ascii) (hc : c ∈ f.text) : IsGraphic c := by
  rcases List.mem_append.1 hc with hc | hc
  · exact f.isGraphic_of_mem_number hc
  · have := Text.isAlpha_iff.1 (f.areLetters c hc)
    exact ⟨by omega, by omega⟩

/-- A text has a form with digits of ASCII just when it has one whose digits are all of ASCII. -/
theorem Form.exists_ascii_iff {d : DigitClass} {P : List Char → List Char → Prop} :
    (∃ f : Form d, f.IsAscii ∧ P f.text f.letters) ↔ ∃ f : Form .ascii, P f.text f.letters := by
  constructor
  · rintro ⟨f, hascii, hf⟩
    exact ⟨f.cast .ascii hascii, hf⟩
  · rintro ⟨f, hf⟩
    refine ⟨f.cast d fun c _ hdigit => d.has_of_isDigit c hdigit, fun c hc hdigit => ?_, hf⟩
    rcases d.isDigit_or c hdigit with hdigit | hbeyond
    · exact hdigit
    · have := (f.isGraphic_of_mem_number hc).2
      omega

/-! ## Reading forms -/

/-- A letter is neither a digit nor a mark of a number. -/
theorem plain_of_isAlpha (h : c.isAlpha = true) : c.isDigit = false ∧ c ≠ '.' ∧ c ≠ '+' ∧ c ≠ '-' := by
  refine ⟨?_, ?_, ?_, ?_⟩
  · rw [Text.isAlpha_iff] at h
    rw [← Bool.not_eq_true, Text.isDigit_iff]
    omega
  all_goals
    rintro rfl
    revert h
    decide

/-- A list starts with a letter, or is empty. -/
abbrev StartsAlpha (cs : List Char) : Prop := ∀ c ∈ cs.head?, c.isAlpha = true

theorem startsAlpha_of_letters (h : ∀ c ∈ letters, c.isAlpha = true) : StartsAlpha letters :=
  fun c hc => h c (List.mem_of_mem_head? hc)

theorem startsAlpha_exponent (h : exponent = [] ∨ IsExponent d exponent) : StartsAlpha exponent := by
  rcases h with rfl | hexponent
  · exact nofun
  · cases hexponent with
    | marked hmark _ _ _ =>
      intro c hc
      cases hc
      rcases hmark with rfl | rfl <;> decide

theorem startsAlpha_exponent_append (h : exponent = [] ∨ IsExponent d exponent) (hletters : ∀ c ∈ letters, c.isAlpha = true) :
    StartsAlpha (exponent ++ letters) := by
  have hstart := startsAlpha_exponent h
  cases exponent with
  | nil => exact startsAlpha_of_letters hletters
  | cons mark body => exact hstart

/-- The exponent of a number begins with its first letter. -/
theorem Form.dropWhile_number (f : Form d) : f.number.dropWhile (!Char.isAlpha ·) = f.exponent := by
  refine dropWhile_append_eq (fun c hc => ?_) fun c hc => ?_
  · rcases List.mem_append.1 hc with hc | hc
    · rcases f.isSign.eq_of_mem hc with rfl | rfl
      · rfl
      · rfl
    · rcases f.isMantissa.cases_mem hc with hdigit | rfl
      · rw [DigitClass.isAlpha_eq_false hdigit, Bool.not_false]
      · rfl
  · rw [startsAlpha_exponent f.isExponent c hc, Bool.not_true]

theorem takeDigits_append (h : AreDigits .ascii digits) (hrest : ∀ c ∈ rest.head?, c.isDigit = false) :
    takeDigits (digits ++ rest) = (digits, rest) :=
  Prod.ext (takeWhile_append_eq h hrest) (dropWhile_append_eq h hrest)

theorem not_isDigit_point : ∀ c ∈ ('.' :: rest).head?, c.isDigit = false := by
  intro c hc
  cases hc
  decide

theorem takeSignText_append (h : IsSign sign) (hrest : ∀ c ∈ rest.head?, c ≠ '+' ∧ c ≠ '-') :
    takeSignText (sign ++ rest) = (sign, rest) := by
  rcases h with rfl | rfl | rfl
  · rw [List.nil_append, takeSignText]
    · rintro more rfl
      exact (hrest '+' rfl).1 rfl
    · rintro more rfl
      exact (hrest '-' rfl).2 rfl
  · rfl
  · rfl

/-- No sign stands in front of a digit. -/
theorem not_sign_of_digits (hne : digits ≠ []) (h : AreDigits d digits) : ∀ c ∈ (digits ++ rest).head?, c ≠ '+' ∧ c ≠ '-' := by
  obtain ⟨first, more, rfl⟩ := List.exists_cons_of_ne_nil hne
  intro c hc
  cases hc
  have hfirst := h first List.mem_cons_self
  exact ⟨DigitClass.ne_of_has hfirst rfl (by decide), DigitClass.ne_of_has hfirst rfl (by decide)⟩

theorem IsMantissa.not_sign (h : IsMantissa d mantissa) : ∀ c ∈ (mantissa ++ rest).head?, c ≠ '+' ∧ c ≠ '-' := by
  cases h with
  | whole hne hdigits => exact not_sign_of_digits hne hdigits
  | pointed hne hdigits _ =>
    rw [List.append_assoc]
    exact not_sign_of_digits hne hdigits
  | fraction _ _ =>
    intro c hc
    cases hc
    decide

theorem takeMantissa?_append (h : IsMantissa .ascii mantissa) (hrest : StartsAlpha rest) :
    takeMantissa? (mantissa ++ rest) = some (mantissa, rest) := by
  have hdigit : ∀ c ∈ rest.head?, c.isDigit = false := fun c hc => (plain_of_isAlpha (hrest c hc)).1
  cases h with
  | whole hne hdigits =>
    rw [takeMantissa?, takeDigits_append hdigits hdigit]
    dsimp only
    split
    · exact absurd rfl (plain_of_isAlpha (hrest '.' rfl)).2.1
    · rw [if_neg (by simp [hne])]
  | @pointed digits fraction hne hdigits hfraction =>
    rw [takeMantissa?, List.append_assoc, List.cons_append, takeDigits_append hdigits not_isDigit_point]
    simp only [takeDigits_append hfraction hdigit]
    rw [if_neg (by simp [hne])]
  | @fraction fraction hne hdigits =>
    have hwhole : takeDigits ('.' :: (fraction ++ rest)) = ([], '.' :: (fraction ++ rest)) := rfl
    rw [takeMantissa?, List.cons_append, hwhole]
    simp only [takeDigits_append hdigits hdigit]
    rw [if_neg (by simp [hne])]
    rfl

theorem takeExponent_append (h : exponent = [] ∨ IsExponent .ascii exponent) (hletters : ∀ c ∈ letters, c.isAlpha = true) :
    takeExponent (exponent ++ letters) = (exponent, letters) := by
  rcases h with rfl | hexponent
  · cases letters with
    | nil => rfl
    | cons e body =>
      have hbody := startsAlpha_of_letters fun c hc => hletters c (List.mem_cons_of_mem _ hc)
      have hsign : takeSignText body = ([], body) :=
        takeSignText_append (.inl rfl) fun c hc => (plain_of_isAlpha (hbody c hc)).2.2
      have hdigits : takeDigits body = ([], body) :=
        takeDigits_append (show AreDigits .ascii [] from nofun) fun c hc => (plain_of_isAlpha (hbody c hc)).1
      simp only [List.nil_append, takeExponent, hsign, hdigits, ite_self]
  · cases hexponent with
    | @marked mark sign digits hmark hsign hne hdigits =>
      have hrest := takeDigits_append hdigits fun c hc => (plain_of_isAlpha (startsAlpha_of_letters hletters c hc)).1
      rw [List.cons_append, List.append_assoc, takeExponent, if_pos hmark,
        takeSignText_append hsign (not_sign_of_digits hne hdigits)]
      dsimp only
      rw [hrest]
      split
      · rename_i hnone
        cases hnone
        exact absurd rfl hne
      · rename_i hsome
        cases hsome
        rfl

/-- A form is split into its number and its letters. -/
theorem split?_text (f : Form .ascii) : split? f.text = some (f.number, f.letters) := by
  have hsign : takeSignText f.text = (f.sign, f.mantissa ++ (f.exponent ++ f.letters)) := by
    rw [Form.text, Form.number, List.append_assoc, List.append_assoc]
    exact takeSignText_append f.isSign f.isMantissa.not_sign
  have hmantissa := takeMantissa?_append f.isMantissa (startsAlpha_exponent_append f.isExponent f.areLetters)
  have hexponent := takeExponent_append f.isExponent f.areLetters
  have hletters : f.letters.all Char.isAlpha = true := List.all_eq_true.2 f.areLetters
  rw [split?, takeNumber?, hsign]
  simp only [hmantissa, hexponent, hletters, Option.bind_eq_bind, Option.bind_some, ↓reduceIte, Form.number]

/-! ## Forms of what is read -/

theorem takeSignText_spec (cs : List Char) : IsSign (takeSignText cs).1 ∧ (takeSignText cs).1 ++ (takeSignText cs).2 = cs := by
  unfold takeSignText
  split
  · exact ⟨.inr (.inl rfl), rfl⟩
  · exact ⟨.inr (.inr rfl), rfl⟩
  · exact ⟨.inl rfl, rfl⟩

theorem takeDigits_spec (cs : List Char) : AreDigits .ascii (takeDigits cs).1 ∧ (takeDigits cs).1 ++ (takeDigits cs).2 = cs :=
  ⟨fun _ hc => List.mem_takeWhile_imp hc, List.takeWhile_append_dropWhile⟩

theorem takeMantissa?_spec (h : takeMantissa? cs = some (mantissa, rest)) : IsMantissa .ascii mantissa ∧ mantissa ++ rest = cs := by
  obtain ⟨hwhole, hcs⟩ := takeDigits_spec cs
  unfold takeMantissa? at h
  dsimp only at h
  split at h
  · rename_i more hmore
    obtain ⟨hfraction, hrest⟩ := takeDigits_spec more
    simp only [Option.ite_none_left_eq_some, Option.some.injEq, Prod.mk.injEq, Bool.and_eq_true, List.isEmpty_iff, not_and] at h
    obtain ⟨hne, rfl, rfl⟩ := h
    rw [hmore] at hcs
    refine ⟨?_, ?_⟩
    · by_cases hnone : (takeDigits cs).1 = []
      · rw [hnone]
        exact .fraction (hne hnone) hfraction
      · exact .pointed hnone hwhole hfraction
    · rw [List.append_assoc, List.cons_append, hrest, hcs]
  · simp only [Option.ite_none_left_eq_some, Option.some.injEq, Prod.mk.injEq, List.isEmpty_iff] at h
    obtain ⟨hne, rfl, rfl⟩ := h
    exact ⟨.whole hne hwhole, hcs⟩

theorem takeExponent_spec (cs : List Char) : ((takeExponent cs).1 = [] ∨ IsExponent .ascii (takeExponent cs).1) ∧
    (takeExponent cs).1 ++ (takeExponent cs).2 = cs := by
  unfold takeExponent
  split
  · exact ⟨.inl rfl, rfl⟩
  · rename_i e body
    split
    · rename_i hmark
      obtain ⟨hsign, hbody⟩ := takeSignText_spec body
      obtain ⟨hdigits, hrest⟩ := takeDigits_spec (takeSignText body).2
      dsimp only
      split
      · exact ⟨.inl rfl, rfl⟩
      · rename_i digits rest hne heq
        rw [heq] at hdigits hrest
        refine ⟨.inr (.marked hmark hsign hne hdigits), ?_⟩
        rw [List.cons_append, List.append_assoc, hrest, hbody]
    · exact ⟨.inl rfl, rfl⟩

/-- What is split is a form. -/
theorem exists_form_of_split? {number : List Char} (h : split? cs = some (number, letters)) :
    ∃ f : Form .ascii, f.text = cs ∧ f.number = number ∧ f.letters = letters := by
  obtain ⟨hsign, hbody⟩ := takeSignText_spec cs
  simp only [split?, takeNumber?, Option.bind_eq_bind, Option.bind_eq_some_iff, Option.some.injEq, Prod.exists, Prod.mk.injEq,
    Option.ite_none_right_eq_some, List.all_eq_true] at h
  obtain ⟨_, _, ⟨mantissa, rest, hmantissa, rfl, rfl⟩, hletters, rfl, rfl⟩ := h
  obtain ⟨hform, hcs⟩ := takeMantissa?_spec hmantissa
  obtain ⟨hexponent, hrest⟩ := takeExponent_spec rest
  refine ⟨⟨_, mantissa, _, _, hsign, hform, hexponent, hletters⟩, ?_, rfl, rfl⟩
  rw [Form.text, Form.number, List.append_assoc, hrest, List.append_assoc, hcs, hbody]

/-- Forms are found by splitting. -/
theorem exists_form_iff {P : List Char → List Char → Prop} :
    (∃ f : Form .ascii, f.text = cs ∧ P f.exponent f.letters) ↔
      ∃ parts ∈ split? cs, P (parts.1.dropWhile (!Char.isAlpha ·)) parts.2 := by
  constructor
  · rintro ⟨f, rfl, hf⟩
    refine ⟨_, split?_text f, ?_⟩
    rw [f.dropWhile_number]
    exact hf
  · rintro ⟨⟨number, letters⟩, hsplit, hparts⟩
    obtain ⟨f, hf, rfl, rfl⟩ := exists_form_of_split? hsplit
    rw [f.dropWhile_number] at hparts
    exact ⟨f, hf, hparts⟩

end TrainingJobs.Quantity

import TrainingJobs.Text.Ranges

/-!
# Digits

A class of digits holds the ten digits of ASCII, and none of its letters nor the signs and the point of a number (`DigitClass`). The
smallest one is those ten alone (`DigitClass.ascii`), a greater one the decimal digits of all scripts (`DigitClass.decimal`).
-/

namespace TrainingJobs.Text

theorem isDigit_iff {c : Char} : c.isDigit = true ↔ 48 ≤ c.toNat ∧ c.toNat ≤ 57 := by
  simp [Char.isDigit, UInt32.le_iff_toNat_le, ← Char.toNat_val]

theorem isAlpha_iff {c : Char} :
    c.isAlpha = true ↔ (65 ≤ c.toNat ∧ c.toNat ≤ 90) ∨ (97 ≤ c.toNat ∧ c.toNat ≤ 122) := by
  change (decide (65 ≤ c.val ∧ c.val ≤ 90) || (decide (97 ≤ c.val) && decide (c.val ≤ 122))) = true ↔ _
  simp [UInt32.le_iff_toNat_le, ← Char.toNat_val]

/-- The zeros of all scripts that count in tens (the general category `Nd`). The other nine digits of a script follow its zero. -/
def zeroDigits : List Nat :=
  [0x30, 0x660, 0x6f0, 0x7c0, 0x966, 0x9e6, 0xa66, 0xae6, 0xb66, 0xbe6, 0xc66, 0xce6, 0xd66, 0xde6, 0xe50, 0xed0, 0xf20, 0x1040,
    0x1090, 0x17e0, 0x1810, 0x1946, 0x19d0, 0x1a80, 0x1a90, 0x1b50, 0x1bb0, 0x1c40, 0x1c50, 0xa620, 0xa8d0, 0xa900, 0xa9d0, 0xa9f0,
    0xaa50, 0xabf0, 0xff10, 0x104a0, 0x10d30, 0x10d40, 0x11066, 0x110f0, 0x11136, 0x111d0, 0x112f0, 0x11450, 0x114d0, 0x11650,
    0x116c0, 0x116d0, 0x116da, 0x11730, 0x118e0, 0x11950, 0x11bf0, 0x11c50, 0x11d50, 0x11da0, 0x11f50, 0x16130, 0x16a60, 0x16ac0,
    0x16b50, 0x16d70, 0x1ccf0, 0x1d7ce, 0x1d7d8, 0x1d7e2, 0x1d7ec, 0x1d7f6, 0x1e140, 0x1e2f0, 0x1e4f0, 0x1e5f1, 0x1e950, 0x1fbf0]

/-- Whether a character is a decimal digit of any script. -/
def isDecimalDigit (c : Char) : Bool := inRanges c.toNat (zeroDigits.map fun z => (z, z + 9))

theorem isDecimalDigit_of_isDigit {c : Char} (h : c.isDigit = true) : isDecimalDigit c = true := by
  obtain ⟨hlow, hhigh⟩ := isDigit_iff.1 h
  rw [isDecimalDigit, inRanges, List.any_eq_true]
  exact ⟨(0x30, 0x39), by decide, by simp [hlow, hhigh]⟩

/-- A decimal digit is one of ASCII, or no character of it at all. -/
theorem isDecimalDigit_cases {c : Char} (h : isDecimalDigit c = true) : c.isDigit = true ∨ 128 ≤ c.toNat := by
  have hranges : ∀ r ∈ zeroDigits.map fun z => (z, z + 9), r = (48, 57) ∨ 128 ≤ r.1 := by decide
  rw [isDecimalDigit, inRanges, List.any_eq_true] at h
  obtain ⟨r, hr, hin⟩ := h
  simp only [Bool.and_eq_true, decide_eq_true_eq] at hin
  rcases hranges r hr with rfl | hbeyond
  · exact .inl (isDigit_iff.2 hin)
  · exact .inr (by omega)

end TrainingJobs.Text

namespace TrainingJobs

/-- A class of digits: those of ASCII are in it, and it has no other character of ASCII. -/
structure DigitClass where
  has : Char → Bool
  has_of_isDigit : ∀ c, c.isDigit = true → has c = true
  isDigit_or : ∀ c, has c = true → c.isDigit = true ∨ 128 ≤ c.toNat

namespace DigitClass

/-- The ten digits of ASCII. -/
def ascii : DigitClass where
  has := Char.isDigit
  has_of_isDigit _ h := h
  isDigit_or _ h := .inl h

/-- The decimal digits of all scripts. -/
def decimal : DigitClass where
  has := Text.isDecimalDigit
  has_of_isDigit _ h := Text.isDecimalDigit_of_isDigit h
  isDigit_or _ h := Text.isDecimalDigit_cases h

variable {d : DigitClass} {c : Char}

/-- No letter of ASCII is a digit. -/
theorem isAlpha_eq_false (h : d.has c = true) : c.isAlpha = false := by
  rw [← Bool.not_eq_true, Text.isAlpha_iff]
  rcases d.isDigit_or c h with hdigit | hbeyond
  · rw [Text.isDigit_iff] at hdigit
    omega
  · omega

theorem ne_of_has {mark : Char} (h : d.has c = true) (hmark : mark.isDigit = false) (hascii : mark.toNat < 128) : c ≠ mark := by
  rintro rfl
  rcases d.isDigit_or c h with hdigit | hbeyond
  · rw [hmark] at hdigit
    cases hdigit
  · omega

end DigitClass

end TrainingJobs
